import ActionGraph.Value.Basic

/-!
What can be seen of a session from outside: diagnostics, log entries and calls of the host, in the
order in which they happen.
-/

namespace ActionGraph

/-- One observation. A call of the host is observed when it begins, whether or not it fails. -/
inductive Entry where
  | diagnostic (line : String)
  | logged (message : String) (data : Value)
  /-- The time an animation takes, in seconds. -/
  | slept (seconds : Float)
  | mount (id : String)
  | create (kind : String) (params : List (String × Value))
  | animate (handle keyframes duration : Value)
  | destroy (handle : Value)
  | resolve (selector : String)
  | unsubscribe

end ActionGraph
