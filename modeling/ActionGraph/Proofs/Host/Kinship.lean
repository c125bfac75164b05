import ActionGraph.Fault
import ActionGraph.Proofs.Host.Tree
import ActionGraph.Proofs.Session.Elements

/-!
The two records of who contains whom: every element names its parent, and every parent lists its
children. Moving elements and taking them out keeps the records in agreement, and as long as they
agree, whatever is to be taken out of a list of children is in it.
-/

namespace ActionGraph.Tree

/-- Parent links and lists of children agree: an element is in the list of its parent, once, and in
no other list. -/
structure Consistent (t : Tree) : Prop where
  listed : ∀ e p, t.parent e = some p ↔ e ∈ t.children p
  once : ∀ p, (t.children p).Nodup

/-- Takes an element out of the children of its parent, and fails if it is not among them. -/
def releaseListed (t : Tree) (e : ElementRef) : Except Fault Tree :=
  match t.parent e with
  | none => .ok t
  | some p => if e ∈ t.children p then .ok (t.setChildren p ((t.children p).erase e)) else .error .notListed

def appendListed (t : Tree) (parent child : ElementRef) : Except Fault Tree := do
  let released ← t.releaseListed child
  let t := released.setParent child (some parent)
  return t.setChildren parent (t.children parent ++ [child])

def detachListed (t : Tree) (e : ElementRef) : Except Fault Tree :=
  match t.parent e with
  | none => .ok t
  | some _ => do
    let released ← t.releaseListed e
    return released.setParent e none

/-- The element that so many parent links lead to, unless they end before. -/
def ancestor? (t : Tree) : Nat → ElementRef → Option ElementRef
  | 0, e => some e
  | n + 1, e => (t.parent e).bind (t.ancestor? n)

variable {t : Tree} {e q : ElementRef}

theorem consistent_empty : Tree.empty.Consistent :=
  ⟨fun _ _ => ⟨nofun, nofun⟩, fun _ => .nil⟩

theorem Consistent.of_same {t' : Tree} (h : t.Consistent) (parents : ∀ e, t'.parent e = t.parent e)
    (children : ∀ p, t'.children p = t.children p) : t'.Consistent :=
  ⟨fun e p => by rw [parents, children]; exact h.listed e p, fun p => by rw [children]; exact h.once p⟩

namespace Consistent

theorem releaseListed (h : t.Consistent) (e : ElementRef) : t.releaseListed e = .ok (t.release e) := by
  cases inside : t.parent e with
  | none => simp [Tree.releaseListed, release, inside]
  | some p => simp [Tree.releaseListed, release, inside, (h.listed e p).mp inside]

theorem appendListed (h : t.Consistent) (p e : ElementRef) : t.appendListed p e = .ok (t.append p e) := by
  rw [Tree.appendListed, h.releaseListed]
  rfl

theorem detachListed (h : t.Consistent) (e : ElementRef) : t.detachListed e = .ok (t.detach e) := by
  cases inside : t.parent e with
  | none => simp [Tree.detachListed, detach, inside]
  | some p =>
    simp only [Tree.detachListed, detach, inside, h.releaseListed]
    rfl

theorem mem_release (h : t.Consistent) {c : ElementRef} :
    e ∈ (t.release c).children q ↔ e ≠ c ∧ t.parent e = some q := by
  rw [children_release]
  split
  · rw [(h.once q).mem_erase_iff, h.listed]
  · rename_i outside
    rw [← h.listed]
    constructor
    · intro inside
      refine ⟨?_, inside⟩
      rintro rfl
      exact outside inside
    · exact And.right

theorem nodup_release (h : t.Consistent) (c q : ElementRef) : ((t.release c).children q).Nodup := by
  rw [children_release]
  split
  · exact (h.once q).erase c
  · exact h.once q

/-- The element may be put where it was, or even into itself. -/
theorem append (h : t.Consistent) (p c : ElementRef) : (t.append p c).Consistent := by
  refine ⟨fun e q => ?_, fun q => ?_⟩
  · rw [parent_append, children_append]
    by_cases moved : c = e
    · subst moved
      have left : c ∉ (t.release c).children q := fun inside => (h.mem_release.mp inside).1 rfl
      by_cases here : p = q <;> simp [here, left]
    · have other : e ≠ c := fun same => moved same.symm
      by_cases here : p = q <;> simp [here, moved, other, h.mem_release]
  · rw [children_append]
    split
    · refine List.nodup_append.mpr ⟨h.nodup_release c q, by simp, fun e inside f last => ?_⟩
      rw [List.mem_singleton.mp last]
      exact (h.mem_release.mp inside).1
    · exact h.nodup_release c q

theorem detach (h : t.Consistent) (c : ElementRef) : (t.detach c).Consistent := by
  refine ⟨fun e q => ?_, fun q => ?_⟩
  · rw [parent_detach, children_detach, h.mem_release]
    by_cases gone : c = e
    · simp [gone]
    · have other : e ≠ c := fun same => gone same.symm
      simp [gone, other]
  · rw [children_detach]
    exact h.nodup_release c q

theorem count (h : t.Consistent) (e p : ElementRef) :
    (t.children p).count e = if t.parent e = some p then 1 else 0 := by
  split
  · rename_i inside
    exact List.count_eq_one_of_mem (h.once p) ((h.listed e p).mp inside)
  · rename_i outside
    exact List.count_eq_zero.mpr fun inside => outside ((h.listed e p).mpr inside)

end Consistent

theorem ancestor?_ends (older : ∀ e p, t.parent e = some p → p.number < e.number) (e : ElementRef) :
    ∃ n, t.ancestor? n e = none := by
  generalize age : e.number = k
  induction k using Nat.strongRecOn generalizing e with
  | ind k ih =>
    cases above : t.parent e with
    | none => exact ⟨1, by rw [ancestor?, above]; rfl⟩
    | some p =>
      obtain ⟨n, ends⟩ := ih p.number (age ▸ older e p above) p rfl
      exact ⟨n + 1, by rw [ancestor?, above]; exact ends⟩

end ActionGraph.Tree
