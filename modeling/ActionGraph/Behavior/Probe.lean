import ActionGraph.Behavior.Builtin

/-!
Node types for trying a run out: each has one trait that the built-in types do not show on their
own, such as failing, letting others go on, or leaving by another port.
-/

namespace ActionGraph.Probe

def repetitions (n : Node) (key : String) : Except Fault Nat :=
  match n.setting? key with
  | none => .ok 0
  | some (.int k) => .ok k.toNat
  | some (.bool b) => .ok (if b then 1 else 0)
  | some v => .error (.notWhole v.qualifiedTypeName)

def tracer : Behavior where
  name := "Tracer"
  effect _ node _ := do
    Action.log ("enter " ++ node.id) .null
    Action.pauses (← Action.ofExcept (repetitions node "yields"))
    Action.log ("leave " ++ node.id) .null
    return []

def boom : Behavior where
  name := "Boom"
  effect _ node _ := .failed (.failure (((node.setting? "message").map Value.display).getD "kaboom"))

def inert : Behavior where
  name := "Inert"
  executable := .ok false

def brokenProducer : Behavior where
  name := "Broken"
  producer := .passive
  executable := .ok false
  supply _ _ _ := .failed (.failure "no mount")

def hollow : Behavior where
  name := "Hollow"
  producer := .passive

def echo : Behavior where
  name := "Echo"
  producer := .passive
  supply _ node port := .done ((node.setting? port).getD .absent)

def double : Behavior where
  name := "Double"
  inputs := [⟨"data_in", some "value", .int 0, some .number⟩]
  effect _ _ inputs := do
    let twice ← Action.ofExcept ((inputs.value "data_in").times 2)
    return [("data_out", twice)]

/-- The outputs a setting lists. Nothing is published when it lists none. -/
def listedOutputs : Value → Except Fault Ports
  | .dict entries => .ok (entries.map fun e => (e.1.display, e.2))
  | v => if v.truthy then .error (.missingAttribute v.qualifiedTypeName "items") else .ok []

def multi : Behavior where
  name := "Multi"
  execOut := "alt_out"
  effect _ node _ := Action.ofExcept (listedOutputs ((node.setting? "outputs").getD .null))

def trap : Behavior where
  name := "Trap"
  executable := .error (.unsuitable "trap")

def trigger : Behavior where
  name := "Trigger"
  producer := .event
  executable := .ok false
  execOut := "go"
  trigger := some ⟨"ev", "", ""⟩

def plain : Behavior where
  name := "NodeBehavior"

def entries : List (String × Behavior) :=
  [("test.trace", tracer), ("test.boom", boom), ("test.inert", inert), ("test.broken", brokenProducer),
   ("test.hollow", hollow), ("test.echo", echo), ("test.double", double), ("test.multi", multi),
   ("test.trap", trap), ("test.trigger", trigger), ("test.plain", plain)]

def repertoire : Repertoire := ⟨Builtin.standard.entries ++ entries⟩

end ActionGraph.Probe
