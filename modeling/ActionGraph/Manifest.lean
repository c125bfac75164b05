import ActionGraph.CommandLine.Run

/-!
The names that the parts of the program offer to its users. Most names stand for a type or a
function and are shown by themselves; a few stand for a text, for the list of names that a part
offers, or for a kind of type, which is shown by the word for it. A part inside another is offered
by that too, and shown by its full name.
-/

namespace ActionGraph.Manifest

inductive Offer where
  | text (s : String)
  | names (all : List String)
  deriving DecidableEq, Repr

structure Part where
  name : String
  names : List String
  others : List (String × Offer)

def Part.listed (name : String) (names : List String) : Part := ⟨name, names, [("__all__", .names names)]⟩

def whole : Part :=
  let names := ["Graph", "Node", "Edge", "Port", "RuntimeOptions", "RuntimeHandle", "start"]
  ⟨CommandLine.programName, names,
    [("__version__", .text CommandLine.version), ("__all__", .names (names ++ ["__version__"]))]⟩

def execution : Part :=
  .listed "cardforge.execution" ["ExecutionEngine", "RunContext", "ListenerManager", "RuntimeHandle", "start"]

def services : Part :=
  .listed "cardforge.services" ["ConnectionDirectionMismatch", "ConnectionKindMismatch", "ConnectionRejected",
    "EdgeKindMismatch", "LinkResult", "UnknownPort", "add_link", "remove_link", "validate_graph"]

def backend : Part where
  name := "cardforge.backend"
  names := ["EventSource", "EffectBackend", "maybe_await"]
  others := [("T", .text "T"), ("Handle", .text "Any"), ("TargetRef", .text "Any"),
    ("EventHandler", .text "Callable"), ("Unsubscribe", .text "Callable")]

def catalog : Part where
  name := "cardforge.catalog"
  names := ["NodeTypeSpec", "_port", "get_node_type", "make_node", "Node", "Port", "Position"]
  others := [("PortDirection", .text "Literal"), ("PortKind", .text "Literal")]

def commands : Part where
  name := "cardforge.cli"
  names := ["load_graph", "_load_or_report", "parse_position", "_format_data", "cmd_demo",
    "cmd_list", "cmd_check", "_triggers", "run_graph", "cmd_run", "main", "RuntimeOptions", "Graph",
    "Node", "start", "HeadlessHost", "collecting_log", "TriggerBehavior", "get_global_registry",
    "make_hover_emoji_demo_graph", "validate_graph"]
  others := [("__version__", .text CommandLine.version)]

def config : Part where
  name := "cardforge.config"
  names := ["RuntimeOptions"]
  others := [("LogSink", .text "Callable"), ("DEFAULT_MOUNT_ID", .text Settings.standard.mountId)]

def domain : Part where
  name := "cardforge.domain"
  names := []
  others := []

def models : Part where
  name := "cardforge.domain.models"
  names := ["Position", "Port", "Node", "Endpoint", "Edge", "Graph", "EventSnapshot"]
  others := [("PortKind", .text "Literal"), ("PortDirection", .text "Literal"),
    ("GRAPH_SCHEMA_VERSION", .text Graph.currentSchema)]

def behaviors : Part where
  name := "cardforge.execution.behaviors"
  names := ["ConstString", "ConstNumber", "UiRoot", "UiHover", "_event_position", "SpawnEmoji",
    "AnimateFly", "RemoveElement", "DebugLog", "compile_expression", "EvalExpression",
    "maybe_await", "EventSnapshot", "Node", "InputSpec", "NodeBehavior", "TriggerBehavior",
    "as_number", "as_text", "register_node_type"]
  others := []

def engine : Part where
  name := "cardforge.execution.engine"
  names := ["RunContext", "ExecutionEngine", "RuntimeOptions", "EventSnapshot", "Graph", "Node",
    "ValueCache", "DataResolver", "NodeTypeRegistry", "get_global_registry"]
  others := []

def listeners : Part where
  name := "cardforge.execution.listeners"
  names := ["_payload_position", "ListenerManager", "RuntimeHandle", "start", "RuntimeOptions",
    "EventSnapshot", "Graph", "Node", "ExecutionEngine", "RunContext", "NodeTypeRegistry",
    "TriggerBehavior", "as_number"]
  others := []

def cache : Part where
  name := "cardforge.execution.ports"
  names := ["_Absent", "ValueCache"]
  others := []

def resolver : Part where
  name := "cardforge.execution.resolver"
  names := ["DataResolver", "Node"]
  others := []

def host : Part where
  name := "cardforge.host"
  names := ["Element", "Target", "AnimationRecord", "HeadlessHost", "collecting_log"]
  others := [("EventHandler", .text "Callable"), ("Unsubscribe", .text "Callable")]

def registry : Part where
  name := "cardforge.registry"
  names := ["as_number", "as_text", "InputSpec", "NodeBehavior", "TriggerBehavior",
    "NodeTypeRegistry", "register_node_type", "get_behavior", "has_node_type",
    "get_global_registry"]
  others := [("Producer", .text "Literal"), ("Coercer", .text "Callable")]

def samples : Part where
  name := "cardforge.samples"
  names := ["_edge", "make_hover_emoji_demo_graph", "make_node", "Edge", "Endpoint", "Graph"]
  others := [("PortKind", .text "Literal")]

def wiring : Part where
  name := "cardforge.services.wiring"
  names := ["ConnectionRejected", "UnknownPort", "ConnectionDirectionMismatch",
    "ConnectionKindMismatch", "EdgeKindMismatch", "LinkResult", "_new_edge_id", "check_connection",
    "add_link", "remove_link", "validate_graph", "Edge", "Endpoint", "Graph"]
  others := [("PortKind", .text "Literal")]

def parts : List Part :=
  [whole, execution, services, backend, catalog, commands, config, domain, models, behaviors, engine,
   listeners, cache, resolver, host, registry, samples, wiring]

def part? (name : String) : Option Part := parts.find? fun p => p.name == name

def Part.find? (p : Part) (name : String) : Option Offer :=
  if name ∈ p.names then some (.text name)
  else
    match Keyed.get? name p.others with
    | some o => some o
    | none => (part? (p.name ++ "." ++ name)).map fun inner => .text inner.name

def find (part name : String) : Except Fault Offer :=
  match part? part with
  | none => .error (.unknownPart part)
  | some p =>
    match p.find? name with
    | some o => .ok o
    | none => .error (.unknownName name)

end ActionGraph.Manifest
