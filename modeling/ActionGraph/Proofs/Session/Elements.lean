import ActionGraph.Proofs.Session.History
import Mathlib.Data.List.Nodup

/-!
What a history tells of elements: which task made which, which it let fly, and which it took out of
its parent.
-/

namespace ActionGraph

/-- The number of an element that a host has made. -/
def ElementRef.number : ElementRef → Nat
  | .created n _ => n
  | _ => 0

namespace Deed

/-- The element that was made. -/
def created? : Deed → Option ElementRef
  | .asked (.create ..) (some (.ok (.element e))) => some e
  | _ => none

/-- The element that was to fly, however that went. -/
def animated? : Deed → Option ElementRef
  | .asked (.animate (.element e) _ _) _ => some e
  | _ => none

/-- The element that was taken out of its parent. -/
def removed? : Deed → Option ElementRef
  | .asked (.destroy (.element e)) (some (.ok _)) => some e
  | _ => none

def Idle (d : Deed) : Prop := d.created? = none ∧ d.animated? = none ∧ d.removed? = none

end Deed

/-- What a task did to elements: those that it made, let fly and took out. -/
structure Ledger (ds : List Deed) (created animated removed : List ElementRef) : Prop where
  created : ds.filterMap Deed.created? = created
  animated : ds.filterMap Deed.animated? = animated
  removed : ds.filterMap Deed.removed? = removed

theorem Ledger.append {ds ds' : List Deed} {a a' b b' c c' : List ElementRef} (h : Ledger ds a b c)
    (k : Ledger ds' a' b' c') : Ledger (ds ++ ds') (a ++ a') (b ++ b') (c ++ c') :=
  ⟨by rw [List.filterMap_append, h.created, k.created], by rw [List.filterMap_append, h.animated, k.animated],
    by rw [List.filterMap_append, h.removed, k.removed]⟩

theorem ledger_nil : Ledger [] [] [] [] := ⟨rfl, rfl, rfl⟩

theorem ledger_idle {ds : List Deed} (h : ∀ d ∈ ds, d.Idle) : Ledger ds [] [] [] :=
  ⟨List.filterMap_eq_nil_iff.mpr fun d hd => (h d hd).1, List.filterMap_eq_nil_iff.mpr fun d hd => (h d hd).2.1,
    List.filterMap_eq_nil_iff.mpr fun d hd => (h d hd).2.2⟩

/-- The element in whose flight a task is, which is then the last thing that it asked for. -/
def flying? (ds : List Deed) : Option ElementRef := ds.getLast?.bind Deed.animated?

theorem flying?_append {ds : List Deed} {d : Deed} : flying? (ds ++ [d]) = d.animated? := by
  rw [flying?, List.getLast?_concat]
  rfl

namespace History

/-- The elements that were made, in order, each with the task that made it. -/
def spawned (h : History) : List (Nat × ElementRef) := h.filterMap fun d => d.2.created?.map fun e => (d.1, e)

/-- Whether a task has taken out nothing yet. -/
def keeps (h : History) (i : Nat) : Bool := ((h.of i).filterMap Deed.removed?).isEmpty

/-- The elements of the tasks that have taken out nothing yet. -/
def kept (h : History) : List ElementRef := (h.spawned.filter fun p => h.keeps p.1).map (·.2)

variable {h : History} {i : Nat} {ds : List Deed}

def tagged (i : Nat) (ds : List Deed) : History := ds.map fun d => (i, d)

theorem spawned_append (h k : History) : (h ++ k).spawned = h.spawned ++ k.spawned :=
  List.filterMap_append

theorem spawned_tagged (i : Nat) (ds : List Deed) :
    (tagged i ds).spawned = (ds.filterMap Deed.created?).map fun e => (i, e) := by
  rw [spawned, tagged, List.filterMap_map, List.map_filterMap]
  rfl

theorem mem_spawned {e : ElementRef} : (i, e) ∈ h.spawned ↔ e ∈ (h.of i).filterMap Deed.created? := by
  constructor
  · intro made
    obtain ⟨⟨j, d⟩, there, eq⟩ := List.mem_filterMap.mp made
    obtain ⟨e', created, same⟩ := Option.map_eq_some_iff.mp eq
    cases same
    exact List.mem_filterMap.mpr ⟨d, List.mem_filterMap.mpr ⟨(_, d), there, if_pos rfl⟩, created⟩
  · intro made
    obtain ⟨d, there, created⟩ := List.mem_filterMap.mp made
    obtain ⟨⟨j, d'⟩, listed, eq⟩ := List.mem_filterMap.mp there
    split at eq
    · rename_i own
      cases eq
      cases own
      exact List.mem_filterMap.mpr ⟨(_, _), listed, Option.map_eq_some_iff.mpr ⟨e, created, rfl⟩⟩
    · cases eq

theorem of_tagged_self (h : History) (i : Nat) (ds : List Deed) : (h ++ tagged i ds).of i = h.of i ++ ds := by
  rw [of_append, tagged, of_map_self]

theorem of_tagged_other (h : History) {j : Nat} (other : i ≠ j) (ds : List Deed) :
    (h ++ tagged i ds).of j = h.of j := by
  rw [of_append, tagged, of_map_other other, List.append_nil]

theorem keeps_tagged_other (h : History) {j : Nat} (other : i ≠ j) (ds : List Deed) :
    (h ++ tagged i ds).keeps j = h.keeps j := by
  rw [keeps, keeps, of_tagged_other h other]

theorem kept_tagged {created animated : List ElementRef} (fresh : h.keeps i = true)
    (ledger : Ledger ds created animated []) : (h ++ tagged i ds).kept = h.kept ++ created := by
  have keeps : ∀ j, (h ++ tagged i ds).keeps j = h.keeps j := by
    intro j
    by_cases other : i = j
    · subst other
      rw [History.keeps, History.keeps, of_tagged_self, List.filterMap_append, ledger.removed, List.append_nil]
    · exact keeps_tagged_other h other ds
  have still : ∀ es : List ElementRef,
      (es.map fun e => (i, e)).filter (fun p => h.keeps p.1) = es.map fun e => (i, e) := by
    intro es
    refine List.filter_eq_self.mpr fun p listed => ?_
    obtain ⟨e, _, rfl⟩ := List.mem_map.mp listed
    exact fresh
  rw [kept, spawned_append, spawned_tagged, ledger.created]
  simp only [keeps, List.filter_append, still, List.map_append, List.map_map]
  exact congrArg _ (List.map_id' created)

theorem kept_removed {e : ElementRef} (distinct : (h.spawned.map (·.2)).Nodup)
    (own : (h.of i).filterMap Deed.created? = [e]) (fresh : h.keeps i = true) (ledger : Ledger ds [] [] [e]) :
    e ∈ h.kept ∧ (h ++ tagged i ds).kept = h.kept.erase e := by
  have made : (i, e) ∈ h.spawned := mem_spawned.mpr (own ▸ List.mem_singleton.mpr rfl)
  have sub : h.kept.Sublist (h.spawned.map (·.2)) := List.filter_sublist.map _
  refine ⟨List.mem_map.mpr ⟨(i, e), List.mem_filter.mpr ⟨made, fresh⟩, rfl⟩, ?_⟩
  have gone : (h ++ tagged i ds).keeps i = false := by
    rw [History.keeps, of_tagged_self, List.filterMap_append, ledger.removed]
    simp
  have chosen : ∀ p ∈ h.spawned, (h ++ tagged i ds).keeps p.1 = (h.keeps p.1 && (p.2 != e)) := by
    rintro ⟨j, e'⟩ listed
    by_cases other : i = j
    · subst other
      have same : e' = e := by
        have mine := mem_spawned.mp listed
        rw [own] at mine
        exact List.mem_singleton.mp mine
      rw [gone, same]
      simp
    · -- Every element was made once, so those of other tasks are different ones.
      have different : e' ≠ e := by
        rintro rfl
        have pair := List.inj_on_of_nodup_map distinct listed made rfl
        exact other (congrArg Prod.fst pair).symm
      rw [keeps_tagged_other h other]
      simp [different]
  rw [(distinct.sublist sub).erase_eq_filter, kept, kept, spawned_append, spawned_tagged, ledger.created,
    List.map_nil, List.append_nil, List.filter_map, List.filter_filter]
  refine congrArg _ (List.filter_congr fun p listed => ?_)
  rw [chosen p listed, Bool.and_comm]
  rfl

end History

/-- The elements of the tasks that are suspended in their flight: such a task has not ended, and the
flight of its element is the last thing that it asked for. -/
def Session.aloft (s : Session) (h : History) : List ElementRef :=
  (h.spawned.filter fun p => (s.result? p.1).isNone && flying? (h.of p.1) == some p.2).map (·.2)

end ActionGraph
