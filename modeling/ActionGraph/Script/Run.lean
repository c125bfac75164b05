import ActionGraph.Action

/-!
What a script does when it runs. Of all that an action can ask for, a script may only log and read
the clock, and it always ends with a result or a fault.
-/

namespace ActionGraph.Script

inductive Run (α : Type) : Type where
  | ended (result : Except Fault α)
  | log (message : String) (data : Value) (next : Run α)
  | now (next : Except Fault Value → Run α)

namespace Run

variable {α β : Type}

/-- One run after the other. A fault ends both. -/
def andThen (a : Run α) (f : α → Run β) : Run β :=
  match a with
  | .ended (.ok x) => f x
  | .ended (.error e) => .ended (.error e)
  | .log message data next => .log message data (next.andThen f)
  | .now next => .now fun r => (next r).andThen f

instance : Monad Run where
  pure x := .ended (.ok x)
  bind := andThen

def fail (e : Fault) : Run α := .ended (.error e)

def milliseconds : Run Value :=
  .now fun r => .ended (r >>= Value.times 1000)

def toAction : Run α → Action (Except Fault α)
  | .ended r => .done r
  | .log message data next => .ask (.log message data) fun _ => next.toAction
  | .now next => .ask .clock fun r => (next r).toAction

end Run

/-- What gives code its meaning: code, input and last event to a run. -/
abbrev Evaluator := (code : String) → (input event : Value) → Run Value

end ActionGraph.Script
