import ActionGraph.Json.Reader
import Mathlib.Data.Nat.Digits.Lemmas

/-!
What a text can hold: integers that are not too long, and objects with each name once, within so many levels
of lists and objects. Nothing else is ever read.
-/

namespace ActionGraph.Json

open Decimal

/-- A value that a text can hold, within so many levels of lists and objects. -/
inductive Legible : (depth : Nat) → Json → Prop
  | null {depth : Nat} : Legible depth .null
  | bool {depth : Nat} (b : Bool) : Legible depth (.bool b)
  | int {depth : Nat} {n : Int} : digitCount n.natAbs ≤ longestInteger → Legible depth (.int n)
  | float {depth : Nat} (x : Float) : Legible depth (.float x)
  | str {depth : Nat} (s : String) : Legible depth (.str s)
  | arr {depth : Nat} {items : List Json} : (∀ item ∈ items, Legible depth item) → Legible (depth + 1) (.arr items)
  | obj {depth : Nat} {members : List (String × Json)} : (members.map Prod.fst).Nodup →
      (∀ m ∈ members, Legible depth m.2) → Legible (depth + 1) (.obj members)

variable {cs rest : List Char} {value count : Nat} {negative : Bool} {depth : Nat} {j : Json}

theorem asciiDigit?_lt {c : Char} {d : Nat} (digit : Text.asciiDigit? c = some d) : d < 10 := by
  unfold Text.asciiDigit? at digit
  split at digit
  · rename_i range
    have top : c.toNat ≤ '9'.toNat := range.2
    rw [← Option.some.inj digit]
    have nine : '9'.toNat = 57 := rfl
    omega
  · cases digit

theorem readDigits_lt {value' count' : Nat} (small : value < 10 ^ count)
    (read : readDigits value count cs = (value', count', rest)) : value' < 10 ^ count' := by
  induction cs generalizing value count with
  | nil =>
    cases read
    exact small
  | cons c cs ih =>
    rw [readDigits] at read
    split at read
    · rename_i d digit
      have last := asciiDigit?_lt digit
      apply ih _ read
      rw [Nat.pow_succ]
      omega
    · cases read
      exact small

theorem digitCount_le {n k : Nat} (some : 0 < k) (small : n < 10 ^ k) : digitCount n ≤ k :=
  (Nat.length_toDigits_le_iff (by decide) some).mpr small

theorem not_legible_pow {k : Nat} (long : longestInteger ≤ k) : ¬ (Json.int (10 ^ k)).Legible depth := by
  intro legible
  cases legible with
  | int short =>
    have positive : 0 < k := Nat.lt_of_lt_of_le (by decide) long
    rw [Int.natAbs_pow] at short
    have small := (Nat.length_toDigits_le_iff (by decide) positive).mp (short.trans long)
    exact Nat.lt_irrefl _ small

theorem legible_readNumber (read : readNumber negative cs = some (j, rest)) : Legible depth j := by
  unfold readNumber at read
  obtain ⟨whole, count, later, digits⟩ : ∃ whole count later, readDigits 0 0 cs = (whole, count, later) := ⟨_, _, _, rfl⟩
  have small := readDigits_lt (by decide) digits
  simp only [digits] at read
  split at read
  · cases read
  · rename_i accepted
    have some : 0 < count := by omega
    split at read
    · cases read
    · rename_i pointed rest' fraction
      split at read
      · obtain ⟨r, -, same⟩ := Option.map_eq_some_iff.mp read
        cases same
        exact .float _
      · obtain ⟨r, -, same⟩ := Option.map_eq_some_iff.mp read
        cases same
        exact .float _
      · split at read
        · cases read
          exact .float _
        · split at read
          · cases read
          · cases read
            apply Legible.int
            have short := digitCount_le some small
            split
            · rw [Int.natAbs_neg, Int.natAbs_natCast]
              omega
            · rw [Int.natAbs_natCast]
              omega

theorem legible_readScalar (read : readScalar cs = some (j, rest)) : Legible depth j := by
  unfold readScalar at read
  split at read
  case h_1 => cases read; exact .null
  case h_2 => cases read; exact .bool true
  case h_3 => cases read; exact .bool false
  case h_4 => cases read; exact .float _
  case h_5 => cases read; exact .float _
  case h_6 => cases read; exact .float _
  case h_7 => exact legible_readNumber read
  case h_8 => exact legible_readNumber read

/-- What is read with so much fuel is such a value, and so are the items and the members of it. -/
structure Legibly (fuel : Nat) : Prop where
  value : ∀ {depth cs j rest}, readValue fuel depth cs = some (j, rest) → Legible depth j
  items : ∀ {depth cs items rest}, readItems fuel depth cs = some (items, rest) → ∀ item ∈ items, Legible depth item
  members : ∀ {depth cs members rest}, readMembers fuel depth cs = some (members, rest) → ∀ m ∈ members, Legible depth m.2

theorem legible_obj {members : List (String × Json)} (legible : ∀ m ∈ members, Legible depth m.2) :
    Legible (depth + 1) (.obj (Keyed.ofList members)) :=
  .obj (Keyed.nodup_ofList members) fun m listed => legible m (Keyed.mem_ofList listed)

theorem Legibly.readValue {fuel : Nat} (less : Legibly fuel) (read : readValue (fuel + 1) depth cs = some (j, rest)) :
    Legible depth j := by
  rw [Json.readValue] at read
  split at read
  · obtain ⟨r, -, same⟩ := Option.map_eq_some_iff.mp read
    cases same
    exact .str _
  · split at read
    · cases read
    · split at read
      · cases read
        exact .arr (by simp)
      · obtain ⟨r, items, same⟩ := Option.map_eq_some_iff.mp read
        cases same
        exact .arr (less.items items)
  · split at read
    · cases read
    · split at read
      · cases read
        exact .obj List.nodup_nil (by simp)
      · obtain ⟨r, members, same⟩ := Option.map_eq_some_iff.mp read
        cases same
        exact legible_obj (less.members members)
  · exact legible_readScalar read

theorem Legibly.readItems {fuel : Nat} (less : Legibly fuel) {items : List Json}
    (read : readItems (fuel + 1) depth cs = some (items, rest)) : ∀ item ∈ items, Legible depth item := by
  rw [Json.readItems] at read
  obtain ⟨⟨first, rest'⟩, one, read⟩ := Option.bind_eq_some_iff.mp read
  have legible := less.value one
  dsimp only at read
  split at read
  · cases read
    simpa using legible
  · obtain ⟨⟨later, rest''⟩, more, same⟩ := Option.bind_eq_some_iff.mp read
    cases same
    exact List.forall_mem_cons.mpr ⟨legible, less.items more⟩
  · cases read

theorem Legibly.readMembers {fuel : Nat} (less : Legibly fuel) {members : List (String × Json)}
    (read : readMembers (fuel + 1) depth cs = some (members, rest)) : ∀ m ∈ members, Legible depth m.2 := by
  rw [Json.readMembers] at read
  split at read
  · obtain ⟨⟨name, rest'⟩, -, read⟩ := Option.bind_eq_some_iff.mp read
    dsimp only at read
    split at read
    · obtain ⟨⟨value, rest''⟩, one, read⟩ := Option.bind_eq_some_iff.mp read
      have legible := less.value one
      dsimp only at read
      split at read
      · cases read
        simpa using legible
      · obtain ⟨⟨later, rest''⟩, more, same⟩ := Option.bind_eq_some_iff.mp read
        cases same
        exact List.forall_mem_cons.mpr ⟨legible, less.members more⟩
      · cases read
    · cases read
  · cases read

-- The three readers call each other, always with less fuel: one induction carries what is known of all of them.
theorem legibly (fuel : Nat) : Legibly fuel := by
  induction fuel with
  | zero => constructor <;> intros <;> contradiction
  | succ fuel less => exact ⟨less.readValue, less.readItems, less.readMembers⟩

/-- All that is ever read from a text is such a value. -/
theorem legible_of_parse? {text : String} (read : parse? depth text = some j) : Legible depth j := by
  unfold parse? at read
  dsimp only at read
  split at read
  · rename_i value
    split at read
    · cases read
      exact (legibly _).value value
    · cases read
  · cases read

end ActionGraph.Json
