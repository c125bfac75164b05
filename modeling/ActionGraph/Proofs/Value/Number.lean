import ActionGraph.Value.Number
import ActionGraph.Proofs.Binary64.Nearest
import ActionGraph.Proofs.Decimal.Numeral

/-!
What a value is as a number: itself if it is one, or what its text says. The coercion to numbers takes
this for everything that has it, and the default for everything else.
-/

namespace ActionGraph

namespace Binary64

open Float.Model Float.Model.UnpackedFloat

variable {bits n d : Nat} {negative : Bool}

/-- Bits with the largest exponent make a number only if all their digits are zero. -/
theorem isNaN_ofBits {word : UInt64} (number : @unpackExponent .binary64 word.toBitVec = -1#11 →
    @unpackMantissa .binary64 word.toBitVec = 0#52) : (Float.ofBits word).isNaN = false := by
  have valid : Format.binary64.Valid word.toBitVec := ⟨fun all some => absurd (number all) some⟩
  have whole : (Float.ofBits word).isNaN = (UnpackedFloat.unpack .binary64 word.toBitVec).isNaN := by
    simp only [Float.isNaN, Float.ofBits, Float.Model.isNaN, Float.Model.unpack, Float.Model.ofBits, Float.Model.pack,
      pack_unpack valid]
  rw [whole, UnpackedFloat.unpack]
  dsimp only
  split
  · rename_i all
    rw [if_pos (number all)]
    rfl
  · split
    · split <;> rfl
    · rfl

theorem isNaN_ofMagnitude (bounded : bits ≤ infinityBits) (negative : Bool) :
    (ofMagnitude negative bits).isNaN = false := by
  apply isNaN_ofBits
  intro all
  apply BitVec.eq_of_toNat_eq
  replace all := congrArg BitVec.toNat all
  simp only [infinityBits, Nat.pow_eq, Nat.reducePow] at bounded
  have width : Format.binary64.numBits = 64 := rfl
  -- The sign stands above the exponent, and the digits below it.
  cases negative with
  | false =>
    simp [unpackExponent, unpackMantissa, Nat.shiftRight_eq_div_pow] at all ⊢
    omega
  | true =>
    simp [unpackExponent, unpackMantissa, Nat.shiftRight_eq_div_pow, width] at all ⊢
    omega

theorem isNaN_infinity (negative : Bool) : (infinity negative).isNaN = false := by
  rw [infinity]
  exact isNaN_ofMagnitude (Nat.le_refl infinityBits) negative

theorem nearestBits_le (n d : Nat) : nearestBits n d ≤ infinityBits := by
  by_cases none : n = 0
  · rw [nearestBits, if_pos none]
    exact Nat.zero_le infinityBits
  · rw [nearestBits_of_scaled (Nat.pos_of_ne_zero none) Prod.mk.eta.symm]
    exact Nat.min_le_right _ infinityBits

theorem isNaN_nearest (negative : Bool) (n d : Nat) : (nearest negative n d).isNaN = false := by
  rw [nearest]
  exact isNaN_ofMagnitude (nearestBits_le n d) negative

end Binary64

open Binary64 Decimal

theorem Decimal.Digits.isNaN_toFloat (negative : Bool) (d : Digits) : (d.toFloat negative).isNaN = false := by
  have none : (ofMagnitude negative 0).isNaN = false := isNaN_ofMagnitude (Nat.zero_le _) negative
  unfold Digits.toFloat
  split
  · exact none
  · dsimp only
    split
    · exact isNaN_infinity negative
    · split
      · exact none
      · split <;> exact isNaN_nearest ..

namespace Decimal.Spelling

/-- Whether a text that says this is the text of a number. -/
def isNumber : Spelling → Bool
  | unknown => false
  | _ => true

theorem isNaN_float (said : Spelling) : said.float.isNaN = !said.isNumber := by
  cases said with
  | infinite negative => exact isNaN_infinity negative
  | unknown => decide
  | decimal negative d => exact d.isNaN_toFloat negative

end Decimal.Spelling

namespace Number

def isNaN : Number → Bool
  | int _ => false
  | float x => x.isNaN

/-- A float as a number. If it is whole, this is an integer. -/
def ofFloat (x : Float) : Number :=
  match toInt? x with
  | some n => .int n
  | none => .float x

theorem toInt?_nan : toInt? Binary64.nan = none := by
  have bits : Binary64.nan.toBits.toNat = 0x7FF8000000000000 := by decide
  have unreadable : reading Binary64.nan = .nan := by simp [reading, bits, readingOfBits]
  rw [toInt?, unreadable]

/-- A text is that of a number if and only if it says one. -/
theorem ofText?_eq_some {n : Number} {s : String} : Number.ofText? s = some n ↔
    ∃ said, Spells s.toList said ∧ said.isNumber = true ∧ ofFloat said.float = n := by
  have known (said : Spelling) (number : said.isNumber = true) : said.float.isNaN = false := by
    rw [said.isNaN_float, number]
    rfl
  rw [Number.ofText?]
  constructor
  · intro read
    cases float : Decimal.ofText? s with
    | none =>
      rw [float] at read
      cases read
    | some x =>
      obtain ⟨said, spelled, rfl⟩ := Decimal.ofText?_eq_some.mp float
      rw [float] at read
      dsimp only at read
      refine ⟨said, spelled, ?_⟩
      rw [ofFloat]
      cases whole : toInt? said.float with
      | some m =>
        rw [whole] at read
        cases said with
        | unknown =>
          rw [Spelling.float, toInt?_nan] at whole
          cases whole
        | _ => exact ⟨rfl, Option.some.inj read⟩
      | none =>
        rw [whole, said.isNaN_float] at read
        cases number : said.isNumber with
        | true =>
          rw [number] at read
          exact ⟨rfl, Option.some.inj read⟩
        | false =>
          rw [number] at read
          cases read
  · rintro ⟨said, spelled, number, rfl⟩
    rw [Decimal.ofText?_eq_some.mpr ⟨said, spelled, rfl⟩, ofFloat]
    dsimp only
    rw [known said number]
    cases toInt? said.float <;> rfl

end Number

/-- What a value is as a number. -/
inductive Value.Means : Value → Number → Prop
  | bool (b : Bool) : Means (.bool b) (.int (if b then 1 else 0))
  | int (n : Int) : Means (.int n) (.int n)
  | float (x : Float) : Means (.float x) (.float x)
  | text {s : String} {said : Spelling} : Spells s.toList said → said.isNumber = true →
    Means (.text s) (.ofFloat said.float)
  | bytes {octets : List UInt8} {said : Spelling} : (∀ b ∈ octets, b < 128) →
    Spells (octets.map fun b => Char.ofNat b.toNat) said → said.isNumber = true →
    Means (.bytes octets) (.ofFloat said.float)

namespace Number

variable {v : Value} {n : Number}

theorem ofOctets?_eq_some {octets : List UInt8} : ofOctets? octets = some n ↔ Value.Means (.bytes octets) n := by
  rw [ofOctets?]
  constructor
  · intro read
    split at read
    · rename_i ascii
      obtain ⟨said, spelled, number, rfl⟩ := Number.ofText?_eq_some.mp read
      rw [String.toList_ofList] at spelled
      exact .bytes (fun b listed => of_decide_eq_true (List.all_eq_true.mp ascii b listed)) spelled number
    · cases read
  · rintro ⟨⟩
    rename_i said number ascii spelled
    rw [if_pos (List.all_eq_true.mpr fun b listed => decide_eq_true (ascii b listed))]
    exact Number.ofText?_eq_some.mpr ⟨said, by rwa [String.toList_ofList], number, rfl⟩

/-- A value is read as a number if and only if it means that number. -/
theorem read?_eq_some : read? v = some n ↔ v.Means n := by
  constructor
  · intro read
    cases v with
    | bool b => cases Option.some.inj read; exact .bool b
    | int m => cases Option.some.inj read; exact .int m
    | float x => cases Option.some.inj read; exact .float x
    | text s =>
      rw [read?] at read
      obtain ⟨said, spelled, number, rfl⟩ := Number.ofText?_eq_some.mp read
      exact .text spelled number
    | bytes octets => exact ofOctets?_eq_some.mp read
    | _ => cases read
  · intro means
    cases means with
    | text spelled number =>
      rw [read?]
      exact Number.ofText?_eq_some.mpr ⟨_, spelled, number, rfl⟩
    | bytes ascii spelled number => exact ofOctets?_eq_some.mpr (.bytes ascii spelled number)
    | _ => rfl

theorem isNaN_ofFloat {x : Float} (number : x.isNaN = false) : (ofFloat x).isNaN = false := by
  rw [ofFloat]
  cases toInt? x with
  | some n => rfl
  | none => exact number

theorem isNaN_iff_of_means (means : v.Means n) : n.isNaN = true ↔ ∃ x, v = .float x ∧ x.isNaN = true := by
  have spelled {said : Spelling} (number : said.isNumber = true) : (ofFloat said.float).isNaN = false :=
    isNaN_ofFloat (by rw [said.isNaN_float, number]; rfl)
  cases means with
  | bool => simp [isNaN]
  | int => simp [isNaN]
  | float x => simp [isNaN]
  | text _ number => simp [spelled number]
  | bytes _ _ number => simp [spelled number]

end Number

theorem Coercion.apply_number (n : Number) (default : Value) :
    Coercion.number.apply n.toValue default = .ok n.toValue := by
  cases n <;> rfl

theorem Value.not_means_of_unknown {s : String} (spelled : Spells s.toList .unknown) (m : Number) :
    ¬ Value.Means (.text s) m := by
  rintro ⟨⟩
  rename_i said number spelled'
  have float := Decimal.ofText?_eq_some.mpr ⟨_, spelled, rfl⟩
  rw [Decimal.ofText?_eq_some.mpr ⟨said, spelled', rfl⟩] at float
  have known := said.isNaN_float
  rw [Option.some.inj float, number, Spelling.isNaN_float] at known
  cases known

/-- What the coercion to numbers makes of a value, if the default is a number. -/
theorem Coercion.number_taken (v : Value) (d : Number) (usable : d.isNaN = false) :
    ∃ n : Number, Coercion.number.apply v d.toValue = .ok n.toValue ∧
      (∀ m, v.Means m → n = m) ∧
      ((¬ ∃ m, v.Means m) → n = d) ∧
      (∀ s, v = .text s → Spells s.toList .unknown → n = d) ∧
      (n.isNaN = true ↔ ∃ x, v = .float x ∧ x.isNaN = true) ∧
      ∀ default, Coercion.number.apply n.toValue default = .ok n.toValue := by
  by_cases means : ∃ m, v.Means m
  · obtain ⟨n, means⟩ := means
    have read := Number.read?_eq_some.mpr means
    refine ⟨n, ?_, fun m means' => ?_, fun nothing => absurd ⟨n, means⟩ nothing, ?_,
      Number.isNaN_iff_of_means means, apply_number n⟩
    · rw [Coercion.apply, Value.coerceNumber, read]
    · exact Option.some.inj (read.symm.trans (Number.read?_eq_some.mpr means'))
    · rintro s rfl spelled
      exact absurd means (Value.not_means_of_unknown spelled n)
  · have unread : Number.read? v = none :=
      Option.eq_none_iff_forall_ne_some.mpr fun m read => means ⟨m, Number.read?_eq_some.mp read⟩
    refine ⟨d, ?_, fun m means' => absurd ⟨m, means'⟩ means, fun _ => rfl, fun _ _ _ => rfl, ?_, apply_number d⟩
    · rw [Coercion.apply, Value.coerceNumber, unread]
    · rw [usable]
      constructor
      · rintro ⟨⟩
      · rintro ⟨x, rfl, _⟩
        exact absurd ⟨_, .float x⟩ means

/-- A text that says that it is not a number gives way to the default. -/
theorem Coercion.number_taken_unknown : Number.isNaN (.int (-1)) = false ∧ ∃ n : Number,
    Coercion.number.apply (.text " -NaN ") (Number.toValue (.int (-1))) = .ok n.toValue ∧ n = .int (-1) := by
  have spelled : Spells ([' '] ++ (['-'] ++ "NaN".toList) ++ [' ']) .unknown :=
    .between (by decide) .minus (.unknown (by decide)) (by decide)
  obtain ⟨n, taken, _, _, unknown, _⟩ := number_taken (.text " -NaN ") (.int (-1)) rfl
  exact ⟨rfl, n, taken, unknown _ rfl spelled⟩

/-- The float that is not a number is taken all the same, although there is a default. -/
theorem Coercion.number_taken_nan : Number.isNaN (.int (-1)) = false ∧ Number.isNaN (.float Binary64.nan) = true ∧
    Coercion.number.apply (.float Binary64.nan) (Number.toValue (.int (-1))) =
      .ok (Number.toValue (.float Binary64.nan)) :=
  ⟨rfl, by decide, rfl⟩

end ActionGraph
