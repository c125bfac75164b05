import ActionGraph.Json.Reader
import ActionGraph.Json.Writer
import ActionGraph.Proofs.Decimal.Shortest

/-!
Numbers are read back as they were written: an integer as that integer, unless it is too long to be read,
and a finite float as that float, in both of the notations there are.
-/

namespace ActionGraph.Json

open Binary64 Decimal

/-- What follows does not go on a run of digits. -/
def Stops (rest : List Char) : Prop := ∀ c ∈ rest.head?, c.isDigit = false

/-- What follows does not go on a number. -/
def Ends (rest : List Char) : Prop := ∀ c ∈ rest.head?, c.isDigit = false ∧ c ≠ '.' ∧ c ≠ 'e' ∧ c ≠ 'E'

/-- The digits of a whole number, which has a zero in front only if it is zero. -/
structure Whole (cs : List Char) : Prop where
  nonempty : cs ≠ []
  digits : ∀ c ∈ cs, c.isDigit = true
  lead : cs.head? = some '0' → cs.length = 1

variable {cs ds rest : List Char} {value count : Nat} {negative : Bool} {x : Float} {n : Nat}

theorem stops_cons {c : Char} (other : c.isDigit = false) (cs : List Char) : Stops (c :: cs) := by
  intro d first
  cases first
  exact other

theorem ends_cons {c : Char} (other : c.isDigit = false ∧ c ≠ '.' ∧ c ≠ 'e' ∧ c ≠ 'E') (cs : List Char) :
    Ends (c :: cs) := by
  intro d first
  cases first
  exact other

theorem Ends.stops (ends : Ends rest) : Stops rest := fun c first => (ends c first).1

theorem Ends.not_point (ends : Ends rest) (tail : List Char) : rest ≠ '.' :: tail := by
  rintro rfl
  exact (ends '.' rfl).2.1 rfl

theorem Ends.not_exponent (ends : Ends rest) (tail : List Char) : rest ≠ 'e' :: tail ∧ rest ≠ 'E' :: tail := by
  constructor
  · rintro rfl
    exact (ends 'e' rfl).2.2.1 rfl
  · rintro rfl
    exact (ends 'E' rfl).2.2.2 rfl

theorem asciiDigit?_eq (c : Char) : Text.asciiDigit? c = if c.isDigit then some (c.toNat - 48) else none := by
  have same : ('0' ≤ c ∧ c ≤ '9') ↔ c.isDigit = true := by
    simp [Char.isDigit, Char.le_def]
  unfold Text.asciiDigit?
  by_cases digit : c.isDigit = true
  · rw [if_pos (same.mpr digit), if_pos digit]
  · rw [if_neg fun h => digit (same.mp h), if_neg digit]

theorem readDigits_append (digits : ∀ c ∈ cs, c.isDigit = true) (stops : Stops rest) (value count : Nat) :
    readDigits value count (cs ++ rest) = (Nat.ofDigitChars 10 cs value, count + cs.length, rest) := by
  induction cs generalizing value count with
  | nil =>
    rw [List.nil_append, Nat.ofDigitChars_nil, List.length_nil, Nat.add_zero]
    cases rest with
    | nil => rfl
    | cons c rest => simp [readDigits, asciiDigit?_eq, stops c rfl]
  | cons c cs ih =>
    have first := digits c List.mem_cons_self
    simp only [List.cons_append, readDigits, asciiDigit?_eq, first, if_true]
    rw [ih fun d later => digits d (List.mem_cons_of_mem c later), Nat.ofDigitChars_cons, List.length_cons]
    congr 2
    omega

theorem isDigit_toDigits {c : Char} (digit : c ∈ Nat.toDigits 10 n) : c.isDigit = true :=
  Nat.isDigit_of_mem_toDigits (by decide) (by decide) digit

theorem head_toDigits (some : 0 < n) : (Nat.toDigits 10 n).head? ≠ Option.some '0' := by
  induction n using Nat.strongRecOn with
  | _ n ih =>
    by_cases small : n < 10
    · rw [Nat.toDigits_of_lt_base small]
      simp
      omega
    · rw [Nat.toDigits_of_base_le (by decide) (by omega), List.head?_append]
      have first := ih (n / 10) (by omega) (by omega)
      cases lead : (Nat.toDigits 10 (n / 10)).head? with
      | none => exact absurd (List.head?_eq_none_iff.mp lead) Nat.toDigits_ne_nil
      | some c =>
        rw [lead] at first
        simpa using first

theorem whole_toDigits (n : Nat) : Whole (Nat.toDigits 10 n) where
  nonempty := Nat.toDigits_ne_nil
  digits _ := isDigit_toDigits
  lead zero := by
    cases n with
    | zero => rfl
    | succ n => exact absurd zero (head_toDigits n.succ_pos)

theorem Whole.accepted (whole : Whole cs) (rest : List Char) :
    ¬ (cs.length = 0 ∨ 1 < cs.length ∧ (cs ++ rest).head? = some '0') := by
  have positive := List.length_pos_iff.mpr whole.nonempty
  rintro (none | ⟨more, zero⟩)
  · omega
  · have one := whole.lead (by rwa [List.head?_append_of_ne_nil _ whole.nonempty] at zero)
    omega

theorem readNumber_int (whole : Whole cs) (ends : Ends rest) (short : cs.length ≤ longestInteger) (negative : Bool) :
    readNumber negative (cs ++ rest) =
      some (.int (if negative then -(Nat.ofDigitChars 10 cs 0 : Int) else Nat.ofDigitChars 10 cs 0), rest) := by
  unfold readNumber
  rw [readDigits_append whole.digits ends.stops]
  simp only [Nat.zero_add, if_neg (whole.accepted rest)]
  split
  · rename_i none
    split at none
    · exact absurd rfl (ends.not_point _)
    · cases none
  · rename_i fraction
    split at fraction
    · exact absurd rfl (ends.not_point _)
    · cases fraction
      split
      · exact absurd rfl (ends.not_exponent _).1
      · exact absurd rfl (ends.not_exponent _).2
      · rw [if_neg Bool.false_ne_true, if_neg (by omega)]

theorem readNumber_point (whole : Whole cs) (nonempty : ds ≠ []) (digits : ∀ c ∈ ds, c.isDigit = true) (ends : Ends rest)
    (negative : Bool) : readNumber negative (cs ++ '.' :: (ds ++ rest)) =
      some (.float (Digits.toFloat negative ⟨Nat.ofDigitChars 10 (cs ++ ds) 0, -(ds.length : Int)⟩), rest) := by
  have positive := List.length_pos_iff.mpr nonempty
  unfold readNumber
  rw [readDigits_append whole.digits (stops_cons rfl _)]
  simp only [Nat.zero_add, if_neg (whole.accepted _), readDigits_append digits ends.stops, ← Nat.ofDigitChars_append,
    if_neg positive.ne']
  split
  · exact absurd rfl (ends.not_exponent _).1
  · exact absurd rfl (ends.not_exponent _).2
  · rfl

theorem readExponent_append (nonempty : ds ≠ []) (digits : ∀ c ∈ ds, c.isDigit = true) (stops : Stops rest) (down : Bool) :
    readExponent ((if down then '-' else '+') :: (ds ++ rest)) =
      some (if down then -(Nat.ofDigitChars 10 ds 0 : Int) else Nat.ofDigitChars 10 ds 0, rest) := by
  have positive := List.length_pos_iff.mpr nonempty
  cases down with
  | true =>
    simp only [readExponent, takeSign, if_true]
    rw [readDigits_append digits stops]
    dsimp only
    rw [if_neg (by omega)]
  | false =>
    simp only [readExponent, takeSign, Bool.false_eq_true, if_false]
    rw [readDigits_append digits stops]
    dsimp only
    rw [if_neg (by omega)]

theorem readNumber_exponent (whole : Whole cs) {tail : List Char} {k : Int} (exponent : readExponent tail = some (k, rest))
    (negative : Bool) : readNumber negative (cs ++ 'e' :: tail) =
      some (.float (Digits.toFloat negative ⟨Nat.ofDigitChars 10 cs 0, k⟩), rest) := by
  unfold readNumber
  rw [readDigits_append whole.digits (stops_cons rfl _)]
  simp only [Nat.zero_add, if_neg (whole.accepted _)]
  have pointless : ∀ later, 'e' :: tail ≠ '.' :: later := by simp
  split
  · rename_i none
    split at none
    · exact absurd ‹_› (pointless _)
    · cases none
  · rename_i fraction
    split at fraction
    · exact absurd ‹_› (pointless _)
    · cases fraction
      simp only [exponent, Option.map_some, Int.zero_add]

theorem readNumber_scientific (whole : Whole cs) (nonempty : ds ≠ []) (digits : ∀ c ∈ ds, c.isDigit = true)
    {tail : List Char} {k : Int} (exponent : readExponent tail = some (k, rest)) (negative : Bool) :
    readNumber negative (cs ++ '.' :: (ds ++ 'e' :: tail)) =
      some (.float (Digits.toFloat negative ⟨Nat.ofDigitChars 10 (cs ++ ds) 0, -(ds.length : Int) + k⟩), rest) := by
  have positive := List.length_pos_iff.mpr nonempty
  unfold readNumber
  rw [readDigits_append whole.digits (stops_cons rfl _)]
  have further := readDigits_append digits (stops_cons (c := 'e') rfl tail)
  simp only [Nat.zero_add, if_neg (whole.accepted _), further, ← Nat.ofDigitChars_append, if_neg positive.ne', exponent,
    Option.map_some]

theorem readScalar_digits (whole : Whole cs) (rest : List Char) : readScalar (cs ++ rest) = readNumber false (cs ++ rest) ∧
    readScalar ('-' :: (cs ++ rest)) = readNumber true (cs ++ rest) := by
  obtain ⟨c, cs, rfl⟩ := List.exists_cons_of_ne_nil whole.nonempty
  have digit := whole.digits c List.mem_cons_self
  rw [List.cons_append]
  constructor
  · unfold readScalar
    split
    case h_8 => rfl
    all_goals
      rename_i same
      obtain ⟨rfl, -⟩ := List.cons.inj same
      cases digit
  · unfold readScalar
    split
    case h_6 same =>
      obtain ⟨-, later⟩ := List.cons.inj same
      obtain ⟨rfl, -⟩ := List.cons.inj later
      cases digit
    case h_7 same =>
      obtain ⟨-, rfl⟩ := List.cons.inj same
      rfl
    case h_8 other => exact absurd rfl (other _)
    all_goals
      rename_i same
      cases same

theorem readScalar_renderInt (ends : Ends rest) {i : Int} (short : digitCount i.natAbs ≤ longestInteger) :
    readScalar (renderInt i ++ rest) = some (.int i, rest) := by
  have whole := whole_toDigits i.natAbs
  have read := fun negative => readNumber_int whole ends short negative
  rw [Nat.ofDigitChars_ten_toDigits] at read
  unfold renderInt
  split
  · rw [List.cons_append, (readScalar_digits whole rest).2, read, if_pos rfl]
    congr 3
    omega
  · rw [(readScalar_digits whole rest).1, read, if_neg Bool.false_ne_true]
    congr 3
    omega

/-- A text is read as a float whose decimal has the value of this one, whatever comes after it. -/
structure Spells (text : List Char) (d : Digits) : Prop where
  digits : ∃ cs more, text = cs ++ more ∧ Whole cs
  read : ∀ rest negative, Ends rest → ∃ d' : Digits, d'.value = d.value ∧
    readNumber negative (text ++ rest) = some (.float (d'.toFloat negative), rest)

theorem digits_toDigits (n : Nat) : ∀ c ∈ Nat.toDigits 10 n, c.isDigit = true := fun _ => isDigit_toDigits

theorem digits_zeros (n : Nat) : ∀ c ∈ List.replicate n '0', c.isDigit = true := by
  intro c zero
  rw [List.eq_of_mem_replicate zero]
  rfl

theorem Whole.pointed (whole : Whole cs) (nonempty : ds ≠ []) (digits : ∀ c ∈ ds, c.isDigit = true) {d : Digits}
    (same : Digits.value ⟨Nat.ofDigitChars 10 (cs ++ ds) 0, -(ds.length : Int)⟩ = d.value) : Spells (cs ++ '.' :: ds) d := by
  refine ⟨⟨cs, '.' :: ds, rfl, whole⟩, fun rest negative ends => ⟨_, same, ?_⟩⟩
  rw [List.append_assoc, List.cons_append]
  exact readNumber_point whole nonempty digits ends negative

theorem spells_large {d : Digits} (some : 0 < d.digits) (up : 0 ≤ d.exponent) : Spells (positional d) d := by
  have whole : Whole (Nat.toDigits 10 d.digits ++ List.replicate d.exponent.toNat '0') := by
    refine ⟨by simp [Nat.toDigits_ne_nil], ?_, fun zero => ?_⟩
    · intro c listed
      exact (List.mem_append.mp listed).elim (digits_toDigits _ c) (digits_zeros _ c)
    · rw [List.head?_append_of_ne_nil _ Nat.toDigits_ne_nil] at zero
      exact absurd zero (head_toDigits some)
  unfold positional
  dsimp only
  rw [if_pos up]
  apply whole.pointed (by simp) (by simp)
  obtain ⟨k, exponent⟩ := Int.eq_ofNat_of_zero_le up
  rw [Nat.ofDigitChars_append, Nat.ofDigitChars_append, Nat.ofDigitChars_ten_toDigits, Nat.ofDigitChars_replicate_zero,
    Digits.value, Digits.value, exponent]
  simp [Nat.ofDigitChars_cons]
  ring

/-- Positional notation of a decimal with a fraction. Zeros stand in front of it only to bring a single one
before the point. -/
theorem spells_small {d : Digits} (some : 0 < d.digits) (down : d.exponent < 0) : Spells (positional d) d := by
  obtain ⟨places, exponent⟩ := Int.eq_ofNat_of_zero_le (Int.neg_nonneg.mpr down.le)
  obtain ⟨all, padded⟩ : ∃ all, all =
      List.replicate (places + 1 - (Nat.toDigits 10 d.digits).length) '0' ++ Nat.toDigits 10 d.digits := ⟨_, rfl⟩
  have length : all.length = places + 1 - (Nat.toDigits 10 d.digits).length + (Nat.toDigits 10 d.digits).length := by
    simp [padded]
  have digits : ∀ c ∈ all, c.isDigit = true := by
    intro c listed
    rw [padded] at listed
    exact (List.mem_append.mp listed).elim (digits_zeros _ c) (digits_toDigits _ c)
  have spelled : Nat.ofDigitChars 10 all 0 = d.digits := by
    rw [padded, Nat.ofDigitChars_append, Nat.ofDigitChars_replicate_zero, Nat.mul_zero, Nat.ofDigitChars_ten_toDigits]
  have whole : Whole (all.take (all.length - places)) := by
    refine ⟨?_, fun c listed => digits c (List.mem_of_mem_take listed), fun zero => ?_⟩
    · apply List.ne_nil_of_length_pos
      rw [List.length_take]
      omega
    · rw [List.length_take]
      by_contra other
      have none : places + 1 - (Nat.toDigits 10 d.digits).length = 0 := by omega
      rw [none, List.replicate_zero, List.nil_append] at padded
      rw [List.head?_take, if_neg (by omega), padded] at zero
      exact head_toDigits some zero
  have text : positional d = all.take (all.length - places) ++ '.' :: all.drop (all.length - places) := by
    unfold positional
    dsimp only
    rw [if_neg (by omega), exponent, Int.toNat_natCast, ← padded]
  rw [text]
  apply whole.pointed
  · apply List.ne_nil_of_length_pos
    rw [List.length_drop]
    omega
  · exact fun c listed => digits c (List.mem_of_mem_drop listed)
  · have same : d = ⟨d.digits, -(places : Int)⟩ := by
      rw [← exponent, Int.neg_neg]
    rw [List.take_append_drop, spelled, List.length_drop, same]
    congr 3
    omega

theorem spells_scientific {d : Digits} : Spells (scientific 1 d) d := by
  have padded : ∀ n, padded 1 n = Nat.toDigits 10 n := by
    intro n
    have positive : 0 < (Nat.toDigits 10 n).length := Nat.length_toDigits_pos
    simp [Decimal.padded, show 1 - (Nat.toDigits 10 n).length = 0 by omega]
  have exponent : ∀ rest, Ends rest → readExponent ((if d.leading < 0 then '-' else '+') ::
      (Nat.toDigits 10 d.leading.natAbs ++ rest)) = some (d.leading, rest) := by
    intro rest ends
    have read := readExponent_append Nat.toDigits_ne_nil (digits_toDigits d.leading.natAbs) ends.stops (decide (d.leading < 0))
    rw [Nat.ofDigitChars_ten_toDigits] at read
    simp only [decide_eq_true_eq] at read
    rw [read]
    congr 2
    split <;> omega
  have count : digitCount d.digits = (Nat.toDigits 10 d.digits).length := rfl
  have spelled : Nat.ofDigitChars 10 (Nat.toDigits 10 d.digits) 0 = d.digits := Nat.ofDigitChars_ten_toDigits
  have digits := digits_toDigits d.digits
  obtain ⟨c, cs, split⟩ := List.exists_cons_of_ne_nil (Nat.toDigits_ne_nil (n := d.digits) (b := 10))
  rw [split] at count spelled digits
  have whole : Whole [c] := ⟨by simp, by simpa using digits c List.mem_cons_self, fun _ => rfl⟩
  unfold scientific
  dsimp only
  rw [split, padded]
  refine ⟨⟨[c], _, by simp; rfl, whole⟩, fun rest negative ends => ⟨d, rfl, ?_⟩⟩
  have same : (⟨d.digits, -(cs.length : Int) + d.leading⟩ : Digits) = d := by
    rw [Digits.leading, count, List.length_cons, Nat.cast_succ]
    congr 1
    omega
  have scale := exponent rest ends
  cases cs with
  | nil =>
    have read := readNumber_exponent whole scale negative
    rw [List.length_nil, Nat.cast_zero, Int.neg_zero, Int.zero_add] at same
    rw [spelled, same] at read
    simpa using read
  | cons c' cs =>
    have fraction : ∀ c ∈ c' :: cs, c.isDigit = true := fun c listed => digits c (List.mem_cons_of_mem _ listed)
    have read := readNumber_scientific whole (by simp) fraction scale negative
    rw [List.singleton_append, List.singleton_append, spelled, same] at read
    simpa using read

theorem spells_decimal (d : Digits) : Spells (documentLayout.decimal d) d := by
  unfold Layout.decimal
  split
  · rename_i none
    have zero : Whole ['0'] := ⟨by simp, by simp, fun _ => rfl⟩
    apply zero.pointed zero.nonempty zero.digits
    simp [Digits.value, none, Nat.ofDigitChars_cons]
  · rename_i some
    split
    · rcases lt_or_ge d.exponent 0 with down | up
      · exact spells_small (Nat.pos_of_ne_zero some) down
      · exact spells_large (Nat.pos_of_ne_zero some) up
    · exact spells_scientific

theorem value_eq_zero {d : Digits} : d.value = 0 ↔ d.digits = 0 := by
  have ten : (10 : ℚ) ^ d.exponent ≠ 0 := zpow_ne_zero _ (by norm_num)
  simp [Digits.value, ten]

/-- A finite float is read back as it is, the sign of a zero included. -/
theorem readScalar_renderFloat (ends : Ends rest) {m : Nat} {e : Int} (finite : reading x = .finite negative m e) :
    readScalar (renderFloat x ++ rest) = some (.float x, rest) := by
  obtain ⟨d, chosen⟩ : ∃ d, d = if m = 0 then ⟨0, 0⟩ else shortest m e := ⟨_, rfl⟩
  obtain ⟨⟨cs, more, text, whole⟩, read⟩ := spells_decimal d
  obtain ⟨d', same, number⟩ := read rest negative ends
  have float : d'.toFloat negative = x := by
    by_cases zero : m = 0
    · subst zero
      rw [if_pos rfl] at chosen
      exact toFloat_zero finite (value_eq_zero.mp (same.trans (value_eq_zero.mpr (by rw [chosen]))))
    · rw [if_neg zero] at chosen
      have some := Nat.pos_of_ne_zero zero
      have positive : d'.digits ≠ 0 := by
        rw [Ne, ← value_eq_zero, same, value_eq_zero, chosen]
        exact (shortest_covers (of_reading finite).1 some).1.ne'
      exact toFloat_shortest finite some (Nat.pos_of_ne_zero positive) (chosen ▸ same)
  have written : renderFloat x = if negative then '-' :: documentLayout.decimal d else documentLayout.decimal d := by
    unfold renderFloat Layout.render
    simp only [finite, ← chosen]
    cases negative <;> simp
  rw [written, ← float]
  rw [text, List.append_assoc] at number
  cases negative with
  | true => rw [if_pos rfl, text, List.cons_append, List.append_assoc, (readScalar_digits whole _).2, number]
  | false => rw [if_neg Bool.false_ne_true, text, List.append_assoc, (readScalar_digits whole _).1, number]

end ActionGraph.Json
