import ActionGraph.Script.Run

/-!
Scripts as syntax, and their meaning. A script is a list of statements; it answers null when it
runs off its end.
-/

namespace ActionGraph.Script

inductive Expr where
  | literal (v : Value)
  | input
  | event
  | item (container : Expr) (key : Value)
  | twice (e : Expr)
  | record (entries : List (String × Expr))
  | list (items : List Expr)
  | now
  | textOf (e : Expr)
  | fault (f : Fault)

inductive Condition where
  | holds (e : Expr)
  | isNull (e : Expr)

inductive Statement where
  | log (message : Value) (data : Expr)
  | answer (e : Expr)
  | fail (f : Fault)
  | check (condition : Condition) (body : Statement)

def itemOf (container key : Value) : Except Fault Value :=
  match container, key with
  | .dict entries, .text name =>
    match Value.entry? name entries with
    | some v => .ok v
    | none => .error (.missingKey key)
  | .dict _, _ => .error (.missingKey key)
  | .text _, _ | .list _, _ | .tuple _, _ | .bytes _, _ => .error (.wrongIndex container key)
  | _, _ => .error (.notIndexable container.qualifiedTypeName)

mutual

def Expr.eval (input event : Value) : Expr → Run Value
  | .literal v => pure v
  | .input => pure input
  | .event => pure event
  | .item container key => do Run.ended (itemOf (← container.eval input event) key)
  | .twice e => do Run.ended ((← e.eval input event).times 2)
  | .record entries => do return .record (← evalEntries input event entries)
  | .list items => do return .list (← evalItems input event items)
  | .now => Run.milliseconds
  | .textOf e => do return .text (← Run.ended (← e.eval input event).spelled)
  | .fault f => Run.fail f

def evalEntries (input event : Value) : List (String × Expr) → Run (List (String × Value))
  | [] => pure []
  | (name, e) :: rest => do
    let v ← e.eval input event
    return (name, v) :: (← evalEntries input event rest)

def evalItems (input event : Value) : List Expr → Run (List Value)
  | [] => pure []
  | e :: rest => do
    let v ← e.eval input event
    return v :: (← evalItems input event rest)

end

def Condition.eval (input event : Value) : Condition → Run Bool
  | .holds e => do return (← e.eval input event).truthy
  | .isNull e => do return (← e.eval input event).isNull

def Statement.exec (input event : Value) : Statement → Run (Option Value)
  | .log message data => do
    let v ← data.eval input event
    Run.log (← Run.ended message.spelled) v (pure none)
  | .answer e => do return some (← e.eval input event)
  | .fail f => Run.fail f
  | .check condition body => do
    if ← condition.eval input event then body.exec input event else pure none

def exec (input event : Value) : List Statement → Run Value
  | [] => pure .null
  | s :: rest => do
    match ← s.exec input event with
    | some v => pure v
    | none => exec input event rest

end ActionGraph.Script
