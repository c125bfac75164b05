import ActionGraph.Keyed

/-!
JSON values. Integers are unbounded and differ from floats even when they are equal numbers;
the members of an object keep their order.
-/

namespace ActionGraph

inductive Json where
  | null
  | bool (b : Bool)
  | int (n : Int)
  | float (x : Float)
  | str (s : String)
  | arr (items : List Json)
  | obj (members : List (String × Json))
  deriving Inhabited

namespace Json

/-- The member of an object under a name; nothing for other values. -/
def get? (name : String) : Json → Option Json
  | .obj members => Keyed.get? name members
  | _ => none

def ofText? : Option String → Json
  | some s => .str s
  | none => .null

end Json

end ActionGraph
