import ActionGraph.Palette
import ActionGraph.Graph.Document

/-!
Nodes made from unchecked values. The settings of such a node may hold any values of a run, also
those that no document can hold; whether it has a document shows when that is written.
-/

namespace ActionGraph

structure Draft where
  id : String
  type : NodeType
  position : Position
  settings : List (String × Value)

def ElementRef.toJson (e : ElementRef) : Json :=
  .obj [("id", .str e.id), ("kind", .str e.kind), ("params", .obj []), ("parent", .null), ("children", .arr [])]

namespace Value

mutual

/-- The form of a value in a document. The mark for an unpublished value has none, and neither
have objects. `room` is how many levels of values may still follow. -/
def toJson : (room : Nat) → Value → Except Fault Json
  | 0, _ => .error .tooDeep
  | _ + 1, .null => .ok .null
  | _ + 1, .bool b => .ok (.bool b)
  | _ + 1, .int n => .ok (.int n)
  | _ + 1, .float x => .ok (.float x)
  | _ + 1, .text s => .ok (.str s)
  | room + 1, .list items => do return .arr (← itemsToJson room items)
  | room + 1, .tuple items => do return .arr (← itemsToJson room items)
  | room + 1, .set items => do return .arr (← itemsToJson room items)
  | room + 1, .dict entries => do return .obj (← entriesToJson room entries)
  | _ + 1, .bytes octets => .ok (.str (String.ofList (octets.map fun b => Char.ofNat b.toNat)))
  | _ + 1, .element e => .ok e.toJson
  | _ + 1, .event s => .ok s.toJson
  | _ + 1, .absent => .error (.unwritable "cardforge.execution.ports._Absent")
  | _ + 1, v => .error (.unwritable v.qualifiedTypeName)

def itemsToJson : (room : Nat) → List Value → Except Fault (List Json)
  | _, [] => .ok []
  | room, item :: items => do
    let j ← toJson room item
    return j :: (← itemsToJson room items)

def entriesToJson : (room : Nat) → List (Value × Value) → Except Fault (List (String × Json))
  | _, [] => .ok []
  | room, (key, value) :: entries => do
    let j ← toJson room value
    return (key.display, j) :: (← entriesToJson room entries)

end

end Value

namespace Draft

def coordinate (index : Nat) : Value → Except Fault Value
  | .list items => match items[index]? with
    | some v => .ok v
    | none => .error (.outOfRange "list")
  | .tuple items => match items[index]? with
    | some v => .ok v
    | none => .error (.outOfRange "tuple")
  | .text s => match s.toList[index]? with
    | some c => .ok (.text (String.singleton c))
    | none => .error (.outOfRange "string")
  | .dict _ => .error (.missingKey (.int index))
  | v => .error (.notIndexable v.qualifiedTypeName)

/-- A new node from unchecked values. The type is looked up first, then the coordinates are taken
and checked, then the id. -/
def make (type : String) (id position : Value) (settings : List (String × Value)) : Except Fault Draft := do
  let t ← Palette.find type
  let x ← coordinate 0 position
  let y ← coordinate 1 position
  let place := Position.mk <$> (Validated.valueNumber x).within (.field "x")
    <*> (Validated.valueNumber y).within (.field "y")
  let place ← place.toExcept.mapError (Fault.invalid "Position")
  let id ← ((Validated.text id).within (.field "id")).toExcept.mapError (Fault.invalid "Node")
  return ⟨id, t, place, Keyed.putAll (t.settings.map fun s => (s.1, s.2.toValue)) settings⟩

def writableDepth : Nat := 254

def document (d : Draft) : Except Fault Json := do
  let settings ← d.settings.mapM fun s => do return (s.1, ← s.2.toJson writableDepth)
  return (Palette.newNode d.type d.id d.position settings).toJson

end Draft

end ActionGraph
