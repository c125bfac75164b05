import ActionGraph.Behavior.Basic

/-!
Behaviors by node type. A type has one behavior at a time; giving it another replaces the first.
-/

namespace ActionGraph

structure Repertoire where
  entries : List (String × Behavior)

namespace Repertoire

def empty : Repertoire := ⟨[]⟩

def assign (r : Repertoire) (type : String) (b : Behavior) : Repertoire := ⟨Keyed.put type b r.entries⟩

def find? (r : Repertoire) (type : String) : Option Behavior := Keyed.get? type r.entries

def has (r : Repertoire) (type : String) : Bool := Keyed.has type r.entries

def types (r : Repertoire) : List String := (r.entries.map Prod.fst).mergeSort fun a b => decide (a ≤ b)

def find (r : Repertoire) (type : String) : Except Fault Behavior :=
  match r.find? type with
  | some b => .ok b
  | none => .error (.unassigned type r.types)

def trigger? (r : Repertoire) (n : Node) : Option (Behavior × Trigger) :=
  match r.find? n.type with
  | some b => b.trigger.map fun t => (b, t)
  | none => none

end Repertoire

end ActionGraph
