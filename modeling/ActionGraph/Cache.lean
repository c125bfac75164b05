import ActionGraph.Value.Basic
import ActionGraph.Graph.Basic

/-!
The values published on ports during a run. Writing overwrites, nothing is taken out, and every
write is counted.
-/

namespace ActionGraph

/-- Published values in the order in which their ports were first written. -/
structure Cache where
  entries : List (Endpoint × Value)
  writes : Nat

namespace Cache

def empty : Cache := ⟨[], 0⟩

def publish (c : Cache) (port : Endpoint) (v : Value) : Cache := ⟨Keyed.put port v c.entries, c.writes + 1⟩

def value (c : Cache) (port : Endpoint) : Value := (Keyed.get? port c.entries).getD .absent

def holds (c : Cache) (port : Endpoint) : Bool := Keyed.has port c.entries

def size (c : Cache) : Nat := c.entries.length

def writeLine (port : Endpoint) (v : Value) : String := "[CACHE] Set " ++ port.text ++ " = " ++ v.typeName

@[simp] theorem value_publish (c : Cache) (p q : Endpoint) (v : Value) :
    (c.publish p v).value q = if p = q then v else c.value q := by
  simp only [publish, value, Keyed.get?_put]
  split <;> rfl

end Cache

end ActionGraph
