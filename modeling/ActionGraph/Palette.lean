import ActionGraph.Graph.Basic
import ActionGraph.Fault

/-!
The node types an editor offers: their ports and the settings a new node starts with. A node keeps
its own copy of both, so nothing looks in the palette once a graph is made.
-/

namespace ActionGraph

structure NodeType where
  type : String
  title : String
  group : String
  description : String
  ports : List Port
  settings : List (String × Json)

namespace Palette

def port (id name : String) (kind : PortKind) (direction : Direction) (dataType : Option String) : Port :=
  ⟨id, kind, direction, some name, dataType, false⟩

def input (id name dataType : String) : Port := port id name .data .inward (some dataType)

def requiredInput (id name dataType : String) : Port := { input id name dataType with required := true }

def output (id name dataType : String) : Port := port id name .data .outward (some dataType)

def execIn : Port := port "exec_in" "In" .exec .inward none

def execOut : Port := port "exec_out" "Out" .exec .outward none

def hover : NodeType where
  type := "event.uiHover"
  title := "UI Hover Listener"
  group := "Events & Listeners"
  description := "Listens for an event on a host selector and emits an exec pulse plus the event payload."
  ports := [port "exec_out" "Triggered" .exec .outward none, output "data_out_event" "Event" "eventPayload"]
  settings := [("selector", .str "#hoverTarget"), ("eventType", .str "mouseover")]

def constString : NodeType where
  type := "data.constString"
  title := "Const String"
  group := "Data"
  description := "Outputs a constant string."
  ports := [output "data_out" "Value" "string"]
  settings := [("value", .str "🚀")]

def constNumber : NodeType where
  type := "data.constNumber"
  title := "Const Number"
  group := "Data"
  description := "Outputs a constant number."
  ports := [output "data_out" "Value" "number"]
  settings := [("value", .int 96)]

def uiRoot : NodeType where
  type := "tool.uiRoot"
  title := "UI Root"
  group := "Tools"
  description := "Provides the mount point that UI effects are created in."
  ports := [port "tool_out" "UI Root" .tool .outward (some "domElement")]
  settings := [("mountId", .str "cj-ui-overlay")]

def spawnEmoji : NodeType where
  type := "ui.spawnEmoji"
  title := "Spawn Emoji"
  group := "UI"
  description := "Creates an emoji element in the UI root, near the pointer when an event is connected."
  ports := [execIn, execOut, requiredInput "data_in_emoji" "Emoji" "string",
    input "data_in_size" "Size px" "number", input "data_in_event" "Event" "eventPayload",
    port "tool_in" "UI Root" .tool .inward (some "domElement"), output "data_out_el" "Element" "domElement"]
  settings := [("defaultEmoji", .str "🚀"), ("defaultSizePx", .int 96), ("positionMode", .str "fromEvent"),
    ("offsetX", .int 10), ("offsetY", .int (-10))]

def animateFly : NodeType where
  type := "ui.animateFly"
  title := "Animate Fly"
  group := "UI"
  description := "Animates an element flying across the screen while scaling, then waits for it to settle."
  ports := [execIn, execOut, requiredInput "data_in_el" "Element" "domElement",
    input "data_in_toX" "To X" "number", input "data_in_toY" "To Y" "number",
    input "data_in_ms" "Duration ms" "number", input "data_in_scaleTo" "Scale to" "number",
    output "data_out_el" "Element" "domElement"]
  settings := [("toX", .int 900), ("toY", .int (-120)), ("durationMs", .int 900),
    ("easing", .str "cubic-bezier(0.2, 0.8, 0.2, 1)"), ("startScale", .int 1), ("endScale", .float 1.7)]

def removeElement : NodeType where
  type := "ui.removeElement"
  title := "Remove Element"
  group := "UI"
  description := "Removes an element from its parent."
  ports := [execIn, execOut, requiredInput "data_in_el" "Element" "domElement"]
  settings := []

def debugLog : NodeType where
  type := "debug.log"
  title := "Debug Log"
  group := "Debug"
  description := "Writes a value to the runtime log."
  ports := [execIn, execOut, input "data_in" "Value" "any"]
  settings := [("label", .str "debug")]

def evaluate : NodeType where
  type := "logic.eval"
  title := "Eval Python (Unsafe)"
  group := "Logic"
  description := "Runs Python code from config as a function of (input, event, helpers). Only use in trusted authoring environments."
  ports := [execIn, execOut, input "data_in" "Input" "json", output "data_out" "Output" "json",
    port "error_out" "Error" .error .outward (some "error")]
  settings := [("code", .str "return \x7b'ok': True, 'input': input\x7d")]

def types : List NodeType :=
  [hover, constString, constNumber, uiRoot, spawnEmoji, animateFly,
   removeElement, debugLog, evaluate]

def find? (type : String) : Option NodeType := types.find? fun t => t.type == type

def names : List String := (types.map (·.type)).mergeSort fun a b => decide (a ≤ b)

def find (type : String) : Except Fault NodeType :=
  match find? type with
  | some t => .ok t
  | none => .error (.notOffered type names)

def newNode (type : NodeType) (id : String) (position : Position) (settings : List (String × Json)) : Node where
  id := id
  type := type.type
  title := some type.title
  position := some position
  config := Keyed.putAll type.settings settings
  ports := type.ports

end Palette

end ActionGraph
