import ActionGraph.Proofs.Session.Move

/-!
What the tasks of a session do, in order. A history says of every request which task made it and
how it was answered, and of every pulse which node ids it came to. It is read off the moves of a
session and adds nothing to them.
-/

namespace ActionGraph

inductive Deed where
  /-- A pulse comes to a node id. -/
  | arrived (id : String)
  /-- A request is met. There is no answer yet if that is to come from outside. -/
  | asked (request : Request) (answer : Option request.Answer)

/-- What the tasks of a session did, each deed under the number of its task. -/
abbrev History := List (Nat × Deed)

def History.of (h : History) (i : Nat) : List Deed := h.filterMap fun d => if d.1 = i then some d.2 else none

/-- The requests that an action makes up to its end or its next suspension. -/
def Action.deeds {α : Type} (due : Bool) (s : Scene) : Action α → List Deed
  | .done _ => []
  | .failed _ => []
  | .ask r next =>
    match s.meet due r with
    | (s, .now x) => .asked r (some x) :: (next x).deeds false s
    | (_, .later x) => [.asked r (some x)]
    | (_, .again) => []
    | (_, .atGate ..) => [.asked r none]

def Thread.deeds {α : Type} (s : Scene) : Thread α → List Deed
  | .ready a => a.deeds false s
  | .due a => a.deeds true s
  | .waiting .. => []

/-- The node id that a pulse comes to next when a visit has ended. -/
def Pulse.arrival (p : Pulse) : Progress (List String) → List Deed
  | .ended (.ok ids) => ((ids ++ p.pending).head?).toList.map .arrived
  | _ => []

theorem Pulse.of_arrival (p : Pulse) {far : Progress (List String)} {d : Deed} (arrives : d ∈ p.arrival far) :
    ∃ id, d = .arrived id := by
  unfold arrival at arrives
  split at arrives
  · obtain ⟨id, _, same⟩ := List.mem_map.mp arrives
    exact ⟨id, same.symm⟩
  · cases arrives

namespace Session

def deeds (s : Session) (i : Nat) : List Deed :=
  match s.tasks[i]? with
  | none => []
  | some t =>
    if t.cancelled then []
    else
      match s.runs[t.run]?, t.work with
      | some r, .pulse p => p.visit.deeds (s.scene r) ++ p.arrival (p.visit.perform (s.scene r)).2
      | some r, .lookup thread => thread.deeds (s.scene r)
      | _, _ => []

def deedsOf (s : Session) : Move → History
  | .cue .step =>
    match s.running with
    | some i => (s.deeds i).map fun d => (i, d)
    | none => []
  | _ => []

def history (s : Session) : List Move → History
  | [] => []
  | m :: moves => s.deedsOf m ++ (s.move m).history moves

theorem deedsOf_other (s : Session) {m : Move} (other : m ≠ .cue .step) : s.deedsOf m = [] := by
  unfold deedsOf
  split
  · exact absurd rfl other
  · rfl

end Session

namespace History

@[simp] theorem of_append (h k : History) (i : Nat) : of (h ++ k) i = of h i ++ of k i :=
  List.filterMap_append

theorem of_map_self (i : Nat) (ds : List Deed) : of (ds.map fun d => (i, d)) i = ds := by
  induction ds with
  | nil => rfl
  | cons d ds ih => simp_all [of]

theorem of_map_other {i j : Nat} (h : i ≠ j) (ds : List Deed) : of (ds.map fun d => (i, d)) j = [] := by
  simp [of, h]

end History

end ActionGraph
