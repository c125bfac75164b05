import ActionGraph.Proofs.Pulse.Spawning
import Mathlib.Data.List.Forall2
import Mathlib.Data.List.Nodup

/-!
Values that are the same up to a renaming of elements. Two hosts that were asked for the same things
number their elements differently; what behaviors make of such values is the same again.
-/

namespace ActionGraph

/-- A renaming of elements, one to one. Mounts are known by their ids and keep them. -/
structure Renaming (ρ : ElementRef → ElementRef → Prop) : Prop where
  mount : ∀ id, ρ (.mount id) (.mount id)
  once : ∀ {e f e' f' : ElementRef}, ρ e f → ρ e' f' → (e = e' ↔ f = f')

/-- Elements at the same place of two lists. -/
def Paired (es fs : List ElementRef) (e f : ElementRef) : Prop :=
  (∃ id, e = .mount id ∧ f = .mount id) ∨ ∃ n : Nat, es[n]? = some e ∧ fs[n]? = some f

theorem renaming_paired {es fs : List ElementRef} (once : es.Nodup) (once' : fs.Nodup)
    (made : ∀ id, .mount id ∉ es) (made' : ∀ id, .mount id ∉ fs) : Renaming (Paired es fs) := by
  refine ⟨fun id => .inl ⟨id, rfl, rfl⟩, fun {e f e' f'} first second => ?_⟩
  rcases first with ⟨id, rfl, rfl⟩ | ⟨n, here, there⟩
  · rcases second with ⟨id', rfl, rfl⟩ | ⟨n', here', there'⟩
    · exact Iff.rfl
    · constructor
      · rintro rfl
        exact absurd (List.mem_of_getElem? here') (made id)
      · rintro rfl
        exact absurd (List.mem_of_getElem? there') (made' id)
  · rcases second with ⟨id', rfl, rfl⟩ | ⟨n', here', there'⟩
    · constructor
      · rintro rfl
        exact absurd (List.mem_of_getElem? here) (made id')
      · rintro rfl
        exact absurd (List.mem_of_getElem? there) (made' id')
    · have bound := (List.getElem?_eq_some_iff.mp here).1
      have bound' := (List.getElem?_eq_some_iff.mp there).1
      constructor
      · rintro rfl
        obtain rfl := (List.getElem?_inj bound once).mp (here.trans here'.symm)
        exact Option.some.inj (there.symm.trans there')
      · rintro rfl
        obtain rfl := (List.getElem?_inj bound' once').mp (there.trans there'.symm)
        exact Option.some.inj (here.symm.trans here')

namespace Value

/-- Neither an element nor made of other values. -/
def isAtom : Value → Bool
  | .element _ | .list _ | .tuple _ | .set _ | .dict _ | .object _ => false
  | _ => true

/-- The same, if neither is made of other values, up to the renaming of elements. -/
inductive Linked (ρ : ElementRef → ElementRef → Prop) : Value → Value → Prop
  | atom {v : Value} : v.isAtom = true → Linked ρ v v
  | element {e f : ElementRef} : ρ e f → Linked ρ (.element e) (.element f)

/-- The same up to the renaming of elements, also where a text shows one. -/
inductive Renamed (ρ : ElementRef → ElementRef → Prop) : Value → Value → Prop
  | atom {v : Value} : v.isAtom = true → Renamed ρ v v
  | element {e f : ElementRef} : ρ e f → Renamed ρ (.element e) (.element f)
  | shown {e f : ElementRef} : ρ e f → Renamed ρ (.text e.text) (.text f.text)
  | dict {es fs : List (Value × Value)} : es.map Prod.fst = fs.map Prod.fst →
      List.Forall₂ (Renamed ρ) (es.map Prod.snd) (fs.map Prod.snd) → Renamed ρ (.dict es) (.dict fs)

variable {ρ : ElementRef → ElementRef → Prop} {v w : Value}

theorem Linked.renamed (linked : Linked ρ v w) : Renamed ρ v w := by
  cases linked with
  | atom single => exact .atom single
  | element pair => exact .element pair

theorem Linked.isNull (linked : Linked ρ v w) : w.isNull = v.isNull := by
  cases linked <;> rfl

theorem Linked.isAbsent (linked : Linked ρ v w) : w.isAbsent = v.isAbsent := by
  cases linked <;> rfl

theorem isAtom_number (n : Number) : n.toValue.isAtom = true := by
  cases n <;> rfl

theorem Renamed.number (n : Number) : Renamed ρ n.toValue n.toValue := .atom (isAtom_number n)

theorem Renamed.text (s : String) : Renamed ρ (.text s) (.text s) := .atom rfl

/-- A field of a record, under the same name. -/
abbrev Entries (ρ : ElementRef → ElementRef → Prop) : List (String × Value) → List (String × Value) → Prop :=
  List.Forall₂ fun a b => a.1 = b.1 ∧ Renamed ρ a.2 b.2

theorem Renamed.record {es fs : List (String × Value)} (entries : Entries ρ es fs) :
    Renamed ρ (record es) (record fs) := by
  refine .dict ?_ ?_
  · induction entries with
    | nil => rfl
    | cons first _ ih => exact congrArg₂ List.cons (congrArg Value.text first.1) ih
  · induction entries with
    | nil => exact .nil
    | cons first _ ih => exact .cons first.2 ih

end Value

namespace Input

open Value (Linked Renamed)

variable {ρ : ElementRef → ElementRef → Prop} {spec : Input} {v w x : Value}

/-- Read as it is wired, or coerced, with something plain to fall back to. -/
inductive Simple : Input → Prop
  | wired (port : String) : Simple (.wired port)
  | coerced {spec : Input} {c : Coercion} : spec.coercion = some c → spec.default.isAtom = true → Simple spec

/-- What the input may read on two hosts: numbers are the same, texts may show elements. -/
def Alike (ρ : ElementRef → ElementRef → Prop) (spec : Input) (v w : Value) : Prop :=
  match spec.coercion with
  | none => Linked ρ v w
  | some .number => w = v ∧ v.isAtom = true
  | some .text => Renamed ρ v w

theorem alike_coerced {c : Coercion} {d : Value} (plain : d.isAtom = true) (coerced : c.apply v d = .ok x) :
    x.isAtom = true := by
  cases c with
  | number =>
    cases coerced
    unfold Value.coerceNumber
    split
    · exact Value.isAtom_number _
    · exact plain
  | text =>
    have texts : v.coerceText d = .ok x := coerced
    unfold Value.coerceText at texts
    split at texts
    · cases texts
      exact plain
    · unfold Value.spelled at texts
      split at texts
      · cases texts
        rfl
      · cases texts

theorem alike_self {c : Coercion} (coercion : spec.coercion = some c) (single : x.isAtom = true) : spec.Alike ρ x x := by
  unfold Alike
  rw [coercion]
  cases c with
  | number => exact ⟨rfl, single⟩
  | text => exact .atom single

theorem isAtom_value {c : Coercion} (coercion : spec.coercion = some c) (plain : spec.default.isAtom = true)
    {node : Node} (read : spec.value node v = .ok x) : x.isAtom = true := by
  unfold value at read
  simp only [coercion] at read
  split at read
  · rename_i null
    cases read
    cases found : spec.found node v <;> rw [found] at null <;> first | rfl | cases null
  · exact alike_coerced plain read

theorem value_element {c : Coercion} (coercion : spec.coercion = some c) (node : Node) (e : ElementRef) :
    spec.value node (.element e) = c.apply (.element e) spec.default := by
  unfold value
  rw [coercion]
  rfl

theorem value_alike (simple : spec.Simple) (node : Node) (linked : Linked ρ v w) :
    (∃ x y, spec.value node v = .ok x ∧ spec.value node w = .ok y ∧ spec.Alike ρ x y) ∨
      ∃ f, spec.value node v = .error f ∧ spec.value node w = .error f := by
  cases simple with
  | wired port =>
    refine .inl ⟨_, _, value_wired port node v, value_wired port node w, ?_⟩
    rw [linked.isAbsent]
    cases v.isAbsent with
    | true => exact .atom rfl
    | false => exact linked
  | @coerced spec c coercion plain =>
    cases linked with
    | atom _ =>
      cases read : spec.value node v with
      | ok x => exact .inl ⟨x, x, rfl, rfl, alike_self coercion (isAtom_value coercion plain read)⟩
      | error f => exact .inr ⟨f, rfl, rfl⟩
    | @element e f pair =>
      rw [value_element coercion, value_element coercion]
      cases c with
      | number => exact .inl ⟨_, _, rfl, rfl, alike_self coercion plain⟩
      | text =>
        refine .inl ⟨.text e.text, .text f.text, rfl, rfl, ?_⟩
        unfold Alike
        rw [coercion]
        exact .shown pair

end Input

end ActionGraph
