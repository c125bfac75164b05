import ActionGraph.Validation.Field

/-!
Pointer positions in event data. Two kinds of data are read with different leniency: what an input
port holds, and what a host hands over when its event fires.
-/

namespace ActionGraph

structure Point where
  x : Number
  y : Number
  deriving DecidableEq

namespace Point

def toValue (p : Point) : Value := .tuple [p.x.toValue, p.y.toValue]

def coordinate (entries : List (Value × Value)) (name other : String) : Option Value :=
  match Value.entry? name entries with
  | some v => some v
  | none => Value.entry? other entries

/-- The position in an event's data on a port, if both coordinates are there and not null. What is
there but no number counts as zero. -/
def ofEvent? : Value → Option Point
  | .event s => some ⟨.float s.x, .float s.y⟩
  | .dict entries =>
    match coordinate entries "x" "clientX", coordinate entries "y" "clientY" with
    | some .null, _ | _, some .null | none, _ | _, none => none
    | some x, some y => some ⟨x.numberOr (.int 0), y.numberOr (.int 0)⟩
  | _ => none

/-- The position in a host's payload. What is missing or no number counts as zero. -/
def ofPayload (payload : Value) : Point :=
  let part (name other : String) : Number :=
    let found := match payload with
      | .dict entries => coordinate entries name other
      | v => match v.attribute? name with
        | some c => some c
        | none => v.attribute? other
    (found.getD (.int 0)).numberOr (.int 0)
  ⟨part "clientX" "x", part "clientY" "y"⟩

end Point

/-- The snapshot of an event, which needs every number to fit a float and the time to be a number or
the text of one. -/
def Snapshot.make (eventClass : String) (position : Point) (timestamp : Value) : Except Fault Snapshot :=
  let field (name : String) (v : Value) := (Validated.valueNumber v).within (.field name)
  (Snapshot.mk eventClass <$> field "x" position.x.toValue <*> field "y" position.y.toValue
    <*> field "timestamp" timestamp).toExcept.mapError (Fault.invalid "EventSnapshot")

end ActionGraph
