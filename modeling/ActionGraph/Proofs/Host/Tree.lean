import ActionGraph.Host.Tree

/-!
What an element contains, as a list without repetitions, and how that list changes when a new
element is put in and when one is taken out.
-/

namespace ActionGraph.Tree

/-- An element contains these elements, each of them once, and is named as their parent. -/
structure Holds (t : Tree) (root : ElementRef) (es : List ElementRef) : Prop where
  children : t.children root = es
  nodup : es.Nodup
  parents : ∀ e ∈ es, t.parent e = some root

variable {t : Tree} {root e : ElementRef}

theorem holds_empty (root : ElementRef) : Tree.empty.Holds root [] :=
  ⟨rfl, .nil, nofun⟩

theorem children_set_detached (t : Tree) (e q : ElementRef) (params : List (String × Value)) :
    (t.set e (.detached params)).children q = if e = q then [] else t.children q := by
  simp only [children, find_set]
  split <;> rfl

theorem parent_set_detached (t : Tree) (e q : ElementRef) (params : List (String × Value)) :
    (t.set e (.detached params)).parent q = if e = q then none else t.parent q := by
  simp only [parent, find_set]
  split <;> rfl

theorem release_free (free : t.parent e = none) : t.release e = t := by
  rw [release, free]

@[simp] theorem parent_release (t : Tree) (e q : ElementRef) : (t.release e).parent q = t.parent q := by
  unfold release
  split
  · rw [parent_setChildren]
  · rfl

theorem children_release (t : Tree) (e q : ElementRef) :
    (t.release e).children q = if t.parent e = some q then (t.children q).erase e else t.children q := by
  cases inside : t.parent e with
  | none => simp [release_free inside]
  | some p =>
    simp only [release, inside, children_setChildren, Option.some.injEq]
    split
    · rename_i same
      rw [same]
    · rfl

theorem children_append (t : Tree) (p e q : ElementRef) :
    (t.append p e).children q = if p = q then (t.release e).children q ++ [e] else (t.release e).children q := by
  simp only [append, children_setChildren, children_setParent]
  split
  · rename_i same
    rw [same]
  · rfl

theorem parent_append (t : Tree) (p e q : ElementRef) :
    (t.append p e).parent q = if e = q then some p else t.parent q := by
  simp only [append, parent_setChildren, parent_setParent, parent_release]

theorem children_detach (t : Tree) (e q : ElementRef) : (t.detach e).children q = (t.release e).children q := by
  unfold detach
  split
  · rw [children_setParent]
  · rename_i free
    rw [release_free free]

theorem parent_detach (t : Tree) (e q : ElementRef) :
    (t.detach e).parent q = if e = q then none else t.parent q := by
  unfold detach
  split
  · rw [parent_setParent, parent_release]
  · rename_i free
    split
    · rename_i same
      rw [← same, free]
    · rfl

theorem Holds.add {es : List ElementRef} (h : t.Holds root es) (new : e ∉ es) (other : e ≠ root)
    (params : List (String × Value)) : ((t.set e (.detached params)).append root e).Holds root (es ++ [e]) := by
  have free : (t.set e (.detached params)).parent e = none := by
    rw [parent_set_detached, if_pos rfl]
  refine ⟨?_, ?_, fun q inside => ?_⟩
  · rw [children_append, if_pos rfl, release_free free, children_set_detached, if_neg other, h.children]
  · refine List.nodup_append.mpr ⟨h.nodup, List.nodup_cons.mpr ⟨nofun, .nil⟩, fun a ha b hb => ?_⟩
    rintro rfl
    exact new (List.mem_singleton.mp hb ▸ ha)
  · rw [parent_append]
    split
    · rfl
    · rename_i old
      rw [parent_set_detached, if_neg old]
      rcases List.mem_append.mp inside with inside | last
      · exact h.parents q inside
      · exact absurd (List.mem_singleton.mp last).symm old

theorem Holds.remove {es : List ElementRef} (h : t.Holds root es) (inside : e ∈ es) :
    (t.detach e).Holds root (es.erase e) := by
  have parent := h.parents e inside
  refine ⟨?_, h.nodup.erase e, fun q still => ?_⟩
  · rw [children_detach, children_release, if_pos parent, h.children]
  · have other : e ≠ q := fun same => (h.nodup.mem_erase_iff.mp still).1 same.symm
    rw [parent_detach, if_neg other]
    exact h.parents q (List.mem_of_mem_erase still)

end ActionGraph.Tree
