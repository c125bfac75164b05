import ActionGraph.Proofs.Keyed
import ActionGraph.Proofs.Validation.Fields
import Mathlib.Data.List.Pairwise

/-!
Documents that differ only in their wording. A field may go by another of its names, fields that nothing
reads may come and go, and the fields of an object may stand in another order. The reading of such
documents is the same, and an error inside of a field has moved with the name of the field.
-/

namespace ActionGraph

namespace Validated

variable {α β : Type} {shift shift' : List Segment → List Segment}

/-- A result whose errors are at other places. -/
def shifted (shift : List Segment → List Segment) : Validated α → Validated α
  | .ok a => .ok a
  | .invalid issues => .invalid (issues.map fun i => ⟨i.rule, shift i.path⟩)

@[simp] theorem shifted_ok (a : α) : (Validated.ok a).shifted shift = .ok a := rfl

theorem shifted_id (x : Validated α) : x.shifted id = x := by
  cases x with
  | ok a => rfl
  | invalid issues => exact congrArg _ (List.map_id issues)

theorem shifted_shifted (x : Validated α) : (x.shifted shift).shifted shift' = x.shifted (shift' ∘ shift) := by
  cases x with
  | ok a => rfl
  | invalid issues => exact congrArg _ List.map_map

theorem shifted_apply (f : Validated (α → β)) (x : Validated α) :
    (apply f x).shifted shift = apply (f.shifted shift) (x.shifted shift) := by
  cases f <;> cases x <;> simp [apply, shifted]

@[simp] theorem shifted_seq (f : Validated (α → β)) (x : Validated α) :
    (f <*> x).shifted shift = f.shifted shift <*> x.shifted shift :=
  shifted_apply f x

@[simp] theorem shifted_map (g : α → β) (x : Validated α) : (g <$> x).shifted shift = g <$> x.shifted shift :=
  shifted_apply (.ok g) x

/-- An error within a part is found under the part's new name, at its new place there. -/
theorem shifted_within {s t : Segment} (agree : ∀ path, shift (s :: path) = t :: shift' path) (x : Validated α) :
    (x.within s).shifted shift = (x.shifted shift').within t := by
  cases x with
  | ok a => rfl
  | invalid issues => simp [within, shifted, agree]

/-- An error in an item is found there, and nowhere else in the list. -/
theorem items_shifted {index i : Nat} {check : α → Validated β} (low : i < index) (xs : List α)
    (fixed : ∀ k, i < k → ∀ path, shift (.item k :: path) = .item k :: path) :
    (items check index xs).shifted shift = items check index xs := by
  induction xs generalizing index with
  | nil => rfl
  | cons x xs ih =>
    rw [items, shifted_apply, shifted_apply, ih (Nat.lt_succ_of_lt low), shifted_ok,
      @shifted_within _ _ id _ _ (fixed index low), shifted_id]

end Validated

namespace Wording

open Validated

/-- Where an error is after a change, if it was here before. -/
abbrev Shift := List Segment → List Segment

/-- What is below one place moves, and nothing else. -/
def under (s : Segment) (shift : Shift) : Shift
  | [] => []
  | t :: path => t :: if t = s then shift path else path

/-- What is below one field is below it by its new name. -/
def renamed (old new : String) : Shift
  | .field name :: path => .field (if name = old then new else name) :: path
  | path => path

/-- A field by its names, the first of which decides, and how what it holds may change. -/
structure Field where
  name : String
  others : List String
  inside : Json → Json → Shift → Prop

/-- Nothing changes in here. -/
def untouched (_ _ : Json) (_ : Shift) : Prop := False

def Field.names (f : Field) : List String := f.name :: f.others

/-- No two of these names are the same. -/
def Distinct (fields : List Field) : Prop := (fields.flatMap Field.names).Nodup

/-- A field of this name is not read: it is unknown, or there is one by the first name of the same field. -/
def Idle (fields : List Field) (present : List String) (name : String) : Prop :=
  (∀ f ∈ fields, name ∉ f.names) ∨ ∃ f ∈ fields, f.name ∈ present ∧ name ∈ f.others

abbrev Members := List (String × Json)

/-- One change to the members of an object with these fields, and how errors move by it. -/
inductive Edit (fields : List Field) : Members → Members → Shift → Prop
  | renamed {before after : Members} {f : Field} {old new : String} {j : Json} :
    f ∈ fields → old ∈ f.names → new ∈ f.names → (∀ m ∈ before ++ after, m.1 ∉ f.names) →
    Edit fields (before ++ (old, j) :: after) (before ++ (new, j) :: after) (renamed old new)
  | idle {before extra extra' after : Members} :
    (∀ m ∈ extra ++ extra', Idle fields ((before ++ after).map Prod.fst) m.1) →
    Edit fields (before ++ extra ++ after) (before ++ extra' ++ after) id
  | reordered {ms ms' : Members} : (ms.map Prod.fst).Nodup → ms.Perm ms' → Edit fields ms ms' id
  | inside {before after : Members} {f : Field} {name : String} {j j' : Json} {shift : Shift} :
    f ∈ fields → name ∈ f.names → (∀ m ∈ before, m.1 ≠ name) → f.inside j j' shift →
    Edit fields (before ++ (name, j) :: after) (before ++ (name, j') :: after) (under (.field name) shift)

/-- A change to an object. -/
inductive Model (fields : List Field) : Json → Json → Shift → Prop
  | object {ms ms' : Members} {shift : Shift} : Edit fields ms ms' shift → Model fields (.obj ms) (.obj ms') shift

/-- A change to one item of a list. -/
inductive Item (inside : Json → Json → Shift → Prop) : Json → Json → Shift → Prop
  | within {before after : List Json} {j j' : Json} {shift : Shift} : inside j j' shift →
    Item inside (.arr (before ++ j :: after)) (.arr (before ++ j' :: after)) (under (.item before.length) shift)

/-- How a field is found before a change and after it. -/
inductive Found (f : Field) (shift : Shift) : Option (String × Json) → Option (String × Json) → Prop
  | missing : shift [.field f.name] = [.field f.name] → Found f shift none none
  | same {name name' : String} {j : Json} : (∀ path, shift (.field name :: path) = .field name' :: path) →
    Found f shift (some (name, j)) (some (name', j))
  | changed {name : String} {j j' : Json} {shift' : Shift} : f.inside j j' shift' →
    (∀ path, shift (.field name :: path) = .field name :: shift' path) →
    Found f shift (some (name, j)) (some (name, j'))

section

variable {fields : List Field} {f g : Field} {ms ms' : Members} {shift : Shift} {name : String} {names : List String}
  {j j' : Json}

theorem Distinct.eq (distinct : Distinct fields) (listed : f ∈ fields) (listed' : g ∈ fields) (named : name ∈ f.names)
    (named' : name ∈ g.names) : f = g := by
  by_contra other
  have symm : Std.Symm (Function.onFun List.Disjoint Field.names) := ⟨fun _ _ apart _ left right => apart right left⟩
  have apart := (List.nodup_flatMap.mp distinct).2.forall listed listed' other
  exact apart named named'

theorem Distinct.first (distinct : Distinct fields) (listed : f ∈ fields) : f.name ∉ f.others :=
  (List.nodup_cons.mp ((List.nodup_flatMap.mp distinct).1 f listed)).1

theorem field?_congr (same : ∀ n ∈ names, Keyed.get? n ms' = Keyed.get? n ms) :
    Json.field? names ms' = Json.field? names ms := by
  unfold Json.field?
  induction names with
  | nil => rfl
  | cons n names ih =>
    rw [List.findSome?_cons, List.findSome?_cons, same n List.mem_cons_self,
      ih fun m listed => same m (List.mem_cons_of_mem n listed)]

theorem field?_of_first (there : Keyed.get? f.name ms = some j) : Json.field? f.names ms = some (f.name, j) := by
  rw [Json.field?, Field.names, List.findSome?_cons, there]
  rfl

theorem field?_of_only (named : name ∈ names) (there : Keyed.get? name ms = some j)
    (only : ∀ n ∈ names, n ≠ name → Keyed.get? n ms = none) : Json.field? names ms = some (name, j) := by
  unfold Json.field?
  induction names with
  | nil => cases named
  | cons n names ih =>
    rw [List.findSome?_cons]
    by_cases same : n = name
    · rw [same, there]
      rfl
    · rw [only n List.mem_cons_self same]
      have later := (List.mem_cons.mp named).resolve_left (Ne.symm same)
      exact ih later fun m listed => only m (List.mem_cons_of_mem n listed)

theorem mem_of_field? (found : Json.field? names ms = some (name, j)) : name ∈ names := by
  obtain ⟨n, listed, under⟩ := List.exists_of_findSome?_eq_some found
  obtain ⟨value, _, same⟩ := Option.map_eq_some_iff.mp under
  cases same
  exact listed

/-- A field that is found as before, by a name that keeps its place. -/
theorem Found.kept (same : Json.field? f.names ms' = Json.field? f.names ms)
    (fixed : ∀ n ∈ f.names, ∀ path, shift (.field n :: path) = .field n :: path) :
    Found f shift (Json.field? f.names ms) (Json.field? f.names ms') := by
  rw [same]
  cases found : Json.field? f.names ms with
  | none => exact .missing (fixed f.name List.mem_cons_self [])
  | some entry => exact .same (fixed entry.1 (mem_of_field? found))

/-- A change that is to another field, or to none. -/
theorem Found.apart (same : ∀ n ∈ f.names, Keyed.get? n ms' = Keyed.get? n ms)
    (fixed : ∀ n ∈ f.names, ∀ path, shift (.field n :: path) = .field n :: path) :
    Found f shift (Json.field? f.names ms) (Json.field? f.names ms') :=
  .kept (field?_congr same) fixed

variable {before extra extra' after : Members} {old new : String}

theorem get?_at (first : ∀ m ∈ before, m.1 ≠ name) (j : Json) :
    Keyed.get? name (before ++ (name, j) :: after) = some j := by
  have missing : Keyed.get? name before = none := by
    rw [Keyed.get?_eq_none, List.mem_map]
    rintro ⟨m, listed, same⟩
    exact first m listed same
  rw [Keyed.get?_append, missing, Keyed.get?, if_pos rfl]
  rfl

theorem get?_beside (other : name ≠ old) (j : Json) :
    Keyed.get? name (before ++ (old, j) :: after) = Keyed.get? name (before ++ after) := by
  have without : Keyed.get? name (before ++ [(old, j)] ++ after) = Keyed.get? name (before ++ after) :=
    Keyed.get?_without (List.forall_mem_singleton.mpr (Ne.symm other))
  rwa [List.append_assoc] at without

theorem renamed_of_ne (other : name ≠ old) (path : List Segment) :
    renamed old new (.field name :: path) = .field name :: path := by
  rw [renamed, if_neg other]

theorem under_of_ne {s t : Segment} (other : t ≠ s) (path : List Segment) : under s shift (t :: path) = t :: path := by
  rw [under, if_neg other]

theorem under_self (s : Segment) (path : List Segment) : under s shift (s :: path) = s :: shift path := by
  rw [under, if_pos rfl]

theorem found_renamed (distinct : Distinct fields) (listed : f ∈ fields) (listed' : g ∈ fields) (named : old ∈ g.names)
    (named' : new ∈ g.names) (only : ∀ m ∈ before ++ after, m.1 ∉ g.names) :
    Found f (renamed old new) (Json.field? f.names (before ++ (old, j) :: after))
      (Json.field? f.names (before ++ (new, j) :: after)) := by
  by_cases own : old ∈ f.names
  · obtain rfl := distinct.eq listed listed' own named
    have alone (name : String) (named : name ∈ f.names) :
        Json.field? f.names (before ++ (name, j) :: after) = some (name, j) := by
      refine field?_of_only named (get?_at (fun m earlier => ?_) j) fun n named' other => ?_
      · rintro rfl
        exact only m (List.mem_append_left _ earlier) named
      · rw [get?_beside other, Keyed.get?_eq_none, List.mem_map]
        rintro ⟨m, there, rfl⟩
        exact only m there named'
    rw [alone old named, alone new named']
    refine .same fun path => ?_
    rw [renamed, if_pos rfl]
  · have own' : new ∉ f.names := fun own' => own (distinct.eq listed listed' own' named' ▸ named)
    have other {name : String} (out : name ∉ f.names) : ∀ n ∈ f.names, n ≠ name := by
      rintro n named rfl
      exact out named
    refine .apart (fun n named => ?_) fun n named => renamed_of_ne (other own n named)
    rw [get?_beside (other own n named), get?_beside (other own' n named)]

theorem Idle.not_first {present : List String} (idle : Idle fields present name) (distinct : Distinct fields)
    (listed : f ∈ fields) : name ≠ f.name := by
  rintro rfl
  rcases idle with unknown | ⟨g, listed', _, other⟩
  · exact unknown f listed List.mem_cons_self
  · obtain rfl := distinct.eq listed listed' List.mem_cons_self (List.mem_cons_of_mem _ other)
    exact distinct.first listed other

theorem Idle.not_named {present : List String} (idle : Idle fields present name) (distinct : Distinct fields)
    (listed : f ∈ fields) (missing : f.name ∉ present) : name ∉ f.names := by
  intro named
  rcases idle with unknown | ⟨g, listed', there, other⟩
  · exact unknown f listed named
  · obtain rfl := distinct.eq listed listed' named (List.mem_cons_of_mem _ other)
    exact missing there

theorem found_idle (distinct : Distinct fields) (listed : f ∈ fields)
    (idle : ∀ m ∈ extra, Idle fields ((before ++ after).map Prod.fst) m.1) :
    Json.field? f.names (before ++ extra ++ after) = Json.field? f.names (before ++ after) := by
  by_cases present : f.name ∈ (before ++ after).map Prod.fst
  · have first : Keyed.get? f.name (before ++ extra ++ after) = Keyed.get? f.name (before ++ after) :=
      Keyed.get?_without fun m there => (idle m there).not_first distinct listed
    obtain ⟨j, there⟩ := Option.ne_none_iff_exists'.mp (mt Keyed.get?_eq_none.mp (not_not.mpr present))
    rw [field?_of_first there, field?_of_first (first.trans there)]
  · refine field?_congr fun n named => Keyed.get?_without fun m there => ?_
    rintro rfl
    exact (idle m there).not_named distinct listed present named

theorem field?_replaced (there : Keyed.get? name ms = some j) (there' : Keyed.get? name ms' = some j')
    (beside : ∀ n, n ≠ name → Keyed.get? n ms' = Keyed.get? n ms) (names : List String) :
    Json.field? names ms' = Json.field? names ms ∧ (∀ entry ∈ Json.field? names ms, entry.1 ≠ name) ∨
      Json.field? names ms = some (name, j) ∧ Json.field? names ms' = some (name, j') := by
  unfold Json.field?
  induction names with
  | nil => exact .inl ⟨rfl, nofun⟩
  | cons n names ih =>
    rw [List.findSome?_cons, List.findSome?_cons]
    by_cases own : n = name
    · rw [own, there, there']
      exact .inr ⟨rfl, rfl⟩
    · rw [beside n own]
      cases Keyed.get? n ms with
      | none => exact ih
      | some value =>
        refine .inl ⟨rfl, ?_⟩
        rintro entry ⟨⟩
        exact own

theorem found_inside (named : name ∈ f.names) (first : ∀ m ∈ before, m.1 ≠ name) (inside : f.inside j j' shift) :
    Found f (under (.field name) shift) (Json.field? f.names (before ++ (name, j) :: after))
      (Json.field? f.names (before ++ (name, j') :: after)) := by
  have there : Keyed.get? name (before ++ (name, j) :: after) = some j := get?_at first j
  have beside (n : String) (other : n ≠ name) :
      Keyed.get? n (before ++ (name, j') :: after) = Keyed.get? n (before ++ (name, j) :: after) := by
    rw [get?_beside other, get?_beside other]
  rcases field?_replaced there (get?_at first j') beside f.names with ⟨same, other⟩ | ⟨found, found'⟩
  · rw [same]
    cases found : Json.field? f.names (before ++ (name, j) :: after) with
    | none =>
      have missing := List.findSome?_eq_none_iff.mp found name named
      rw [there] at missing
      cases missing
    | some entry => exact .same (under_of_ne fun same => other entry found (Segment.field.inj same))
  · rw [found, found']
    exact .changed inside (under_self _)

/-- How each field of an object is found after a change to it. -/
theorem Edit.found (edit : Edit fields ms ms' shift) (distinct : Distinct fields) (listed : f ∈ fields) :
    Found f shift (Json.field? f.names ms) (Json.field? f.names ms') := by
  cases edit with
  | renamed listed' named named' only => exact found_renamed distinct listed listed' named named' only
  | idle idle =>
    have idle := List.forall_mem_append.mp idle
    refine .kept ?_ fun _ _ _ => rfl
    rw [found_idle distinct listed idle.1, found_idle distinct listed idle.2]
  | reordered nodup perm => exact .apart (fun n _ => Keyed.get?_perm nodup perm n) fun _ _ _ => rfl
  | @inside _ _ g name _ _ _ listed' named first inside =>
    by_cases own : name ∈ f.names
    · obtain rfl := distinct.eq listed listed' own named
      exact found_inside own first inside
    · have other {n : String} (named' : n ∈ f.names) : n ≠ name := by
        rintro rfl
        exact own named'
      refine .apart (fun n named => ?_) fun n named => under_of_ne fun same => other named (Segment.field.inj same)
      rw [get?_beside (other named), get?_beside (other named)]

end

/-- A check that sees a change of what it checks only in the places of errors. -/
def Respects {α : Type} (inside : Json → Json → Shift → Prop) (check : Json → Validated α) : Prop :=
  ∀ j j' shift, inside j j' shift → check j' = (check j).shifted shift

theorem respects_untouched {α : Type} (check : Json → Validated α) : Respects untouched check := nofun

section

variable {α : Type} {fields : List Field} {ms ms' : Members} {shift : Shift} {name : String} {others : List String}
  {inside : Json → Json → Shift → Prop} {check : Json → Validated α}

theorem Found.read {f : Field} {entry entry' : Option (String × Json)} (found : Found f shift entry entry')
    (respects : Respects f.inside check) {none none' : Validated α}
    (missing : shift [.field f.name] = [.field f.name] → none' = none.shifted shift) :
    (match entry' with | some (n, j) => (check j).within (.field n) | Option.none => none') =
      (match entry with | some (n, j) => (check j).within (.field n) | Option.none => none).shifted shift := by
  cases found with
  | missing fixed => exact missing fixed
  | same agree =>
    dsimp only
    rw [@shifted_within _ _ id _ _ agree, shifted_id]
  | changed inside agree =>
    dsimp only
    rw [shifted_within agree, respects _ _ _ inside]

theorem Edit.required (edit : Edit fields ms ms' shift) (distinct : Distinct fields)
    (listed : ⟨name, others, inside⟩ ∈ fields) (respects : Respects inside check) :
    Json.required ms' name others check = (Json.required ms name others check).shifted shift := by
  refine (edit.found distinct listed).read respects fun fixed => ?_
  exact congrArg (fun path => Validated.invalid [⟨.required, path⟩]) fixed.symm

theorem Edit.optional (edit : Edit fields ms ms' shift) (distinct : Distinct fields)
    (listed : ⟨name, others, inside⟩ ∈ fields) (respects : Respects inside check) (default : α) :
    Json.optional ms' name others default check = (Json.optional ms name others default check).shifted shift :=
  (edit.found distinct listed).read respects fun _ => rfl

theorem Edit.nullable (edit : Edit fields ms ms' shift) (distinct : Distinct fields)
    (listed : ⟨name, others, inside⟩ ∈ fields) (respects : Respects inside (Json.nullOr check)) :
    Json.nullable ms' name others check = (Json.nullable ms name others check).shifted shift :=
  edit.optional distinct listed respects none

theorem Respects.nullOr (respects : Respects (Model fields) check) : Respects (Model fields) (Json.nullOr check) := by
  rintro j j' shift ⟨edit⟩
  rw [Json.nullOr, Json.nullOr, respects _ _ _ (.object edit), shifted_apply, shifted_ok]
  · nofun
  · nofun

theorem Respects.items_at (respects : Respects inside check) {j j' : Json} (change : inside j j' shift)
    (before after : List Json) (index : Nat) : Validated.items check index (before ++ j' :: after) =
      (Validated.items check index (before ++ j :: after)).shifted (under (.item (index + before.length)) shift) := by
  have fixed {i k : Nat} (other : k ≠ i) (path : List Segment) :
      under (.item i) shift (.item k :: path) = .item k :: path :=
    under_of_ne (fun same => other (Segment.item.inj same)) path
  induction before generalizing index with
  | nil =>
    rw [List.nil_append, List.nil_append, List.length_nil, Nat.add_zero, Validated.items, Validated.items,
      shifted_apply, shifted_apply, shifted_ok, shifted_within (under_self _), respects _ _ _ change,
      items_shifted (Nat.lt_succ_self index) after fun k later => fixed (Nat.ne_of_gt later)]
  | cons x before ih =>
    have place : index + (x :: before).length = index + 1 + before.length := by
      rw [List.length_cons]
      omega
    have other : index ≠ index + 1 + before.length := by omega
    rw [List.cons_append, List.cons_append, place, Validated.items, Validated.items, ih, shifted_apply, shifted_apply,
      shifted_ok, @shifted_within _ _ id _ _ (fixed other), shifted_id]

theorem Respects.items (respects : Respects inside check) : Respects (Item inside) (Json.items check) := by
  rintro j j' shift ⟨change⟩
  rename_i before after j j' shift
  have moved := respects.items_at change before after 0
  rw [Nat.zero_add] at moved
  exact moved

end

/-- A step to a place, by the first name of a field. -/
def called (first : String → String) : Segment → Segment
  | .field name => .field (first name)
  | .item index => .item index

/-- The places of errors differ at most in the names that fields go by. -/
def Nominal (first : String → String) (shift : Shift) : Prop :=
  ∀ path, (shift path).map (called first) = path.map (called first)

theorem Nominal.under {first : String → String} {shift : Shift} (nominal : Nominal first shift) (s : Segment) :
    Nominal first (under s shift) := by
  intro path
  cases path with
  | nil => rfl
  | cons t path =>
    rw [Wording.under]
    split
    · rw [List.map_cons, List.map_cons, nominal path]
    · rfl

/-- A change in here moves errors by the names of fields alone. -/
def Nominally (first : String → String) (inside : Json → Json → Shift → Prop) : Prop :=
  ∀ j j' shift, inside j j' shift → Nominal first shift

theorem nominally_untouched (first : String → String) : Nominally first untouched := nofun

theorem Nominally.model {fields : List Field} {first : String → String}
    (names : ∀ f ∈ fields, ∀ name ∈ f.names, first name = f.name) (inner : ∀ f ∈ fields, Nominally first f.inside) :
    Nominally first (Model fields) := by
  rintro j j' shift ⟨edit⟩
  cases edit with
  | @renamed _ _ f old new _ listed named named' _ =>
    intro path
    match path with
    | [] => rfl
    | .item _ :: _ => rfl
    | .field name :: path =>
      rw [renamed, List.map_cons, List.map_cons, called, called]
      split
      · rename_i own
        rw [own, names f listed old named, names f listed new named']
      · rfl
  | idle => exact fun _ => rfl
  | reordered => exact fun _ => rfl
  | inside listed _ _ change => exact (inner _ listed _ _ _ change).under _

theorem Nominally.item {first : String → String} {inside : Json → Json → Shift → Prop}
    (inner : Nominally first inside) : Nominally first (Item inside) := by
  rintro j j' shift ⟨change⟩
  exact (inner _ _ _ change).under _

end Wording

end ActionGraph
