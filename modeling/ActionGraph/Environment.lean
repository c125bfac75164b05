import ActionGraph.Behavior.Repertoire

/-!
How a node's inputs are found. An input is followed along its edge: a published value is taken as
it is, and only a passive producer is asked to compute one, which is then published. Nothing is
ever executed to find an input.
-/

namespace ActionGraph

structure Environment where
  graph : Graph
  repertoire : Repertoire
  settings : Settings

namespace Environment

/-- Asks a passive producer for an output. A failure is reported and leaves no value. -/
def supply (env : Environment) (producer : Node) (b : Behavior) (port : String) : Action Value := do
  let source : Endpoint := ⟨producer.id, port⟩
  match ← (b.supply env.settings producer port).attempt with
  | .error f =>
    Action.diagnose ("[RESOLVER] ERROR producing " ++ source.text ++ ": " ++ f.message)
    Action.log ("Could not resolve " ++ source.text) (.record [("error", .text f.line)])
    return .absent
  | .ok v =>
    if v.isAbsent then return .absent
    else
      Action.diagnose ("[RESOLVER] Resolved " ++ source.text ++ " → " ++ v.typeName)
      Action.publish source v
      return v

/-- The value at the other end of an input's edge, or the mark for none. -/
def resolve (env : Environment) (input : Endpoint) : Action Value :=
  match env.graph.incoming? input with
  | none => .done .absent
  | some edge => do
    let existing ← Action.cached edge.source
    if existing.isAbsent then
      match env.graph.node? edge.source.node with
      | none =>
        Action.diagnose ("[RESOLVER] WARNING: edge " ++ edge.id ++ " starts at unknown node " ++ edge.source.node)
        return .absent
      | some producer =>
        match env.repertoire.find? producer.type with
        | none => return .absent
        | some b =>
          if b.producer = .passive then env.supply producer b edge.source.port else return .absent
    else return existing

/-- Reads inputs one after the other, until one cannot be coerced. -/
def readInputs (env : Environment) (node : Node) : List Input → Ports → Action Ports
  | [], ports => .done ports
  | spec :: specs, ports => do
    let wired ← env.resolve ⟨node.id, spec.port⟩
    let v ← Action.ofExcept (spec.value node wired)
    env.readInputs node specs (Keyed.put spec.port v ports)

end Environment

end ActionGraph
