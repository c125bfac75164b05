import ActionGraph.Cache
import ActionGraph.Environment
import ActionGraph.Text.Quoted

/-!
Pulses. A pulse walks the execution edges of a graph depth first: it runs a node, then all that
follows from the node's own output, and only then the next sibling. What it still has to visit is
therefore a stack of node ids. A node that fails is reported and does not stop its pulse.
-/

namespace ActionGraph

inductive Arrival where
  | missing
  /-- The node has a type without behavior. -/
  | unassigned (node : Node)
  /-- The node is of a type that pulses do not run. -/
  | passedBy (node : Node)
  /-- Whether pulses run the node could not be found out. -/
  | unclear (fault : Fault)
  | runnable (node : Node) (behavior : Behavior)

namespace Environment

/-- The nodes that a pulse from an execution output goes to, in order. -/
def targets (env : Environment) (origin : Endpoint) : List String :=
  (env.graph.execEdges origin).map (·.target.node)

/-- Leaves by an execution output. A way that leads nowhere is not reported. -/
def leave (env : Environment) (origin : Endpoint) : Action (List String) := do
  let ids := env.targets origin
  if !ids.isEmpty then Action.diagnose ("[PULSE] " ++ origin.text ++ " → " ++ Text.quotedList ids)
  return ids

def arrive (env : Environment) (id : String) : Arrival :=
  match env.graph.node? id with
  | none => .missing
  | some node =>
    match env.repertoire.find? node.type with
    | none => .unassigned node
    | some b =>
      match b.executable with
      | .error f => .unclear f
      | .ok true => .runnable node b
      | .ok false => .passedBy node

def publishAll (node : Node) : Ports → Action Unit
  | [] => .done ()
  | (port, v) :: rest => do
    Action.publish ⟨node.id, port⟩ v
    publishAll node rest

/-- Reads the inputs of a node, performs its effect and publishes its outputs. -/
def perform (env : Environment) (node : Node) (b : Behavior) : Action Unit := do
  let inputs ← env.readInputs node b.inputs []
  let outputs ← b.effect env.settings node inputs
  publishAll node outputs

/-- Runs a node; a fault is reported and goes no further. -/
def contain (env : Environment) (node : Node) (b : Behavior) : Action Unit := do
  match ← (env.perform node b).attempt with
  | .ok _ => pure ()
  | .error f =>
    Action.diagnose ("[ENGINE] Node " ++ node.id ++ " failed: " ++ f.line)
    Action.log ("Node " ++ node.id ++ " failed") (.record [("type", .text node.type), ("error", .text f.line)])

/-- Runs a node and leaves by its execution output, with the nodes to visit next as the result. -/
def run (env : Environment) (node : Node) (b : Behavior) : Action (List String) := do
  Action.diagnose ("[ENGINE] Executing node: " ++ node.id ++ " (" ++ node.type ++ ")")
  env.contain node b
  env.leave ⟨node.id, b.execOut⟩

/-- Visits a node id. A pulse ends at what it cannot run. -/
def visit (env : Environment) (id : String) : Action (List String) :=
  match env.arrive id with
  | .missing => do
    Action.diagnose ("[ENGINE] WARNING: Node " ++ id ++ " not found in graph")
    return []
  | .unassigned node => do
    Action.diagnose ("[ENGINE] No behavior for " ++ node.id ++ " (type=" ++ node.type ++ "), pulse ends here")
    Action.log ("Unknown node type: " ++ node.type) (.record [("node", .text node.id)])
    return []
  | .passedBy _ => .done []
  | .unclear f => .failed f
  | .runnable node b => env.run node b

end Environment

end ActionGraph
