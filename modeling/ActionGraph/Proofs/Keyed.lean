import ActionGraph.Keyed
import Mathlib.Data.List.Nodup

/-!
Looking a key up in entries that were put together from others, or put into another order.
-/

namespace ActionGraph.Keyed

variable {κ ν : Type} [DecidableEq κ] {k : κ} {v : ν} {entries entries' before extra after : List (κ × ν)}

theorem get?_eq_none : get? k entries = none ↔ k ∉ entries.map Prod.fst := by
  induction entries with
  | nil => simp [get?]
  | cons e rest ih =>
    rw [get?, List.map_cons, List.mem_cons, not_or]
    by_cases same : e.1 = k
    · simp [same]
    · rw [if_neg same, ih]
      exact (and_iff_right (Ne.symm same)).symm

theorem get?_append : get? k (before ++ after) = (get? k before).or (get? k after) := by
  induction before with
  | nil => rfl
  | cons e rest ih =>
    rw [List.cons_append, get?, get?]
    split
    · rfl
    · exact ih

theorem get?_without (other : ∀ e ∈ extra, e.1 ≠ k) : get? k (before ++ extra ++ after) = get? k (before ++ after) := by
  have missing : get? k extra = none := by
    rw [get?_eq_none, List.mem_map]
    rintro ⟨e, listed, same⟩
    exact other e listed same
  rw [get?_append, get?_append, get?_append, missing, Option.or_none]

theorem get?_eq_some (nodup : (entries.map Prod.fst).Nodup) : get? k entries = some v ↔ (k, v) ∈ entries := by
  refine ⟨mem_of_get?, fun listed => ?_⟩
  induction entries with
  | nil => cases listed
  | cons e rest ih =>
    rw [List.map_cons, List.nodup_cons] at nodup
    rcases List.mem_cons.mp listed with rfl | later
    · simp [get?]
    · have other : e.1 ≠ k := by
        rintro rfl
        exact nodup.1 (List.mem_map.mpr ⟨_, later, rfl⟩)
      rw [get?, if_neg other]
      exact ih nodup.2 later

theorem get?_perm (nodup : (entries.map Prod.fst).Nodup) (perm : entries.Perm entries') (k : κ) :
    get? k entries' = get? k entries := by
  have nodup' := (perm.map Prod.fst).nodup_iff.mp nodup
  ext v
  rw [get?_eq_some nodup, get?_eq_some nodup', perm.mem_iff]

end ActionGraph.Keyed
