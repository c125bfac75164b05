import ActionGraph.Json.Basic

/-!
The values that flow along data edges. They extend JSON with what only a run produces: elements
of a host, event snapshots, and the mark for a value that was never published.
-/

namespace ActionGraph

/-- The identity of a host element. A mount is known by its id and a created element by its
number; a loose element was made by nobody's host and is told apart by a serial number. -/
inductive ElementRef where
  | mount (id : String)
  | created (number : Nat) (kind : String)
  | loose (serial : Nat) (id : String) (kind : String)
  deriving DecidableEq, Repr

namespace ElementRef

/-- The id an element is shown with. Two elements may share one. -/
def id : ElementRef → String
  | .mount id => id
  | .created number _ => "el_" ++ toString number
  | .loose _ id _ => id

def kind : ElementRef → String
  | .mount _ => "mount"
  | .created _ kind => kind
  | .loose _ _ kind => kind

end ElementRef

/-- What is kept of an external event: its class, the pointer position, and the time in
milliseconds. -/
structure Snapshot where
  eventClass : String
  x : Float
  y : Float
  timestamp : Float
  deriving DecidableEq

inductive Value where
  | null
  | bool (b : Bool)
  | int (n : Int)
  | float (x : Float)
  | text (s : String)
  | list (items : List Value)
  | tuple (items : List Value)
  | set (items : List Value)
  | dict (entries : List (Value × Value))
  | bytes (octets : List UInt8)
  | object (attributes : List (String × Value))
  | element (ref : ElementRef)
  | event (snapshot : Snapshot)
  | absent
  | enclosing
  deriving Inhabited

namespace Value

def record (entries : List (String × Value)) : Value :=
  .dict (entries.map fun e => (.text e.1, e.2))

def isAbsent : Value → Bool
  | .absent => true
  | _ => false

def isNull : Value → Bool
  | .null => true
  | _ => false

def typeName : Value → String
  | .null => "NoneType"
  | .bool _ => "bool"
  | .int _ => "int"
  | .float _ => "float"
  | .text _ => "str"
  | .list _ => "list"
  | .tuple _ => "tuple"
  | .set _ => "set"
  | .dict _ => "dict"
  | .bytes _ => "bytes"
  | .object _ => "SimpleNamespace"
  | .element _ => "Element"
  | .event _ => "EventSnapshot"
  | .absent => "_Absent"
  | .enclosing => "dict"

def qualifiedTypeName : Value → String
  | .object _ => "types.SimpleNamespace"
  | v => v.typeName

/-- Whether a value counts as true: nothing, zero and what is empty do not. -/
def truthy : Value → Bool
  | .null => false
  | .bool b => b
  | .int n => n != 0
  | .float x => x != 0
  | .text s => s != ""
  | .list items => !items.isEmpty
  | .tuple items => !items.isEmpty
  | .set items => !items.isEmpty
  | .dict entries => !entries.isEmpty
  | .bytes octets => !octets.isEmpty
  | .absent => false
  | _ => true

def entry? (name : String) : List (Value × Value) → Option Value
  | [] => none
  | (.text k, v) :: rest => if k = name then some v else entry? name rest
  | _ :: rest => entry? name rest

/-- The attribute of an object or of a snapshot. Other values have none that matter here. -/
def attribute? (name : String) : Value → Option Value
  | .object attributes => Keyed.get? name attributes
  | .event s =>
    if name = "x" then some (.float s.x)
    else if name = "y" then some (.float s.y)
    else none
  | _ => none

end Value

namespace Json

mutual

def toValue : Json → Value
  | .null => .null
  | .bool b => .bool b
  | .int n => .int n
  | .float x => .float x
  | .str s => .text s
  | .arr items => .list (itemsToValues items)
  | .obj members => .dict (membersToValues members)

def itemsToValues : List Json → List Value
  | [] => []
  | item :: items => toValue item :: itemsToValues items

def membersToValues : List (String × Json) → List (Value × Value)
  | [] => []
  | (name, value) :: members => (.text name, toValue value) :: membersToValues members

end

end Json

def Snapshot.toRecord (s : Snapshot) : Value :=
  .record [("class", .text s.eventClass), ("x", .float s.x), ("y", .float s.y),
    ("timestamp", .float s.timestamp)]

end ActionGraph
