import ActionGraph.Validation.Field
import Mathlib.Data.List.Forall2

/-!
When a check succeeds: every part of it does, and the value is put together from the values of the parts.
-/

namespace ActionGraph

namespace Validated

variable {α β : Type} {b : β}

theorem apply_eq_ok {f : Validated (α → β)} {x : Validated α} :
    apply f x = .ok b ↔ ∃ g a, f = .ok g ∧ x = .ok a ∧ g a = b := by
  cases f <;> cases x <;> simp [apply]

@[simp] theorem seq_eq_ok {f : Validated (α → β)} {x : Validated α} :
    f <*> x = .ok b ↔ ∃ g a, f = .ok g ∧ x = .ok a ∧ g a = b :=
  apply_eq_ok

@[simp] theorem map_eq_ok {f : α → β} {x : Validated α} : f <$> x = .ok b ↔ ∃ a, x = .ok a ∧ f a = b := by
  have applied := @apply_eq_ok α β b (.ok f) x
  simp only [ok.injEq, exists_and_left, exists_eq_left'] at applied
  exact applied

@[simp] theorem within_eq_ok {s : Segment} {x : Validated α} {a : α} : x.within s = .ok a ↔ x = .ok a := by
  cases x <;> simp [within]

theorem items_eq_ok {check : α → Validated β} {xs : List α} {ys : List β} (index : Nat) :
    items check index xs = .ok ys ↔ List.Forall₂ (fun x y => check x = .ok y) xs ys := by
  induction xs generalizing index ys with
  | nil => simp [items, eq_comm]
  | cons x xs ih =>
    rw [items, List.forall₂_cons_left_iff]
    simp [apply_eq_ok, ih, @eq_comm _ ys]

end Validated

namespace Json

variable {α : Type} {members : List (String × Json)} {name found : String} {names : List String} {j : Json}
variable {check : Json → Validated α} {a : α}

theorem mem_of_field? (there : field? names members = some (found, j)) : (found, j) ∈ members := by
  obtain ⟨name, -, under⟩ := List.exists_of_findSome?_eq_some there
  obtain ⟨value, get, same⟩ := Option.map_eq_some_iff.mp under
  cases same
  exact Keyed.mem_of_get? get

theorem items_eq_ok {as : List α} : items check j = .ok as ↔
    ∃ js, j = .arr js ∧ List.Forall₂ (fun j a => check j = .ok a) js as := by
  cases j <;> simp [items, Validated.items_eq_ok, Validated.broken]

theorem mem_of_items {as : List α} (passes : items check j = .ok as) :
    ∃ js, j = .arr js ∧ ∀ a ∈ as, ∃ item ∈ js, check item = .ok a := by
  obtain ⟨js, list, each⟩ := items_eq_ok.mp passes
  refine ⟨js, list, ?_⟩
  clear list passes
  induction each with
  | nil => simp
  | cons first _ ih =>
    rw [List.forall_mem_cons]
    constructor
    · exact ⟨_, List.mem_cons_self, first⟩
    · intro a listed
      obtain ⟨item, given, check⟩ := ih a listed
      exact ⟨item, List.mem_cons_of_mem _ given, check⟩

/-- The check of a field that may be null. -/
def nullOr (check : Json → Validated α) : Json → Validated (Option α)
  | .null => .ok none
  | j => Validated.apply (.ok some) (check j)

theorem nullable_eq : nullable members name names check = optional members name names none (nullOr check) := rfl

theorem optional_eq_ok {default : α} (passes : optional members name names default check = .ok a) :
    a = default ∨ ∃ m ∈ members, check m.2 = .ok a := by
  unfold optional at passes
  split at passes
  · rename_i found j there
    exact .inr ⟨(found, j), mem_of_field? there, Validated.within_eq_ok.mp passes⟩
  · cases passes
    exact .inl rfl

end Json

end ActionGraph
