import ActionGraph.Decimal.Digits
import ActionGraph.Proofs.Binary64.Bits

/-!
The float nearest to a quotient. A float stands for a number of at most fifty-three binary digits and an
exponent; every quotient in the interval around that number is rounded to the float.
-/

namespace ActionGraph

/-- A number lies in an interval. The ends count if the interval is closed. -/
def Decimal.Interval.Covers (i : Decimal.Interval) (y : ℚ) : Prop :=
  i.lower ≤ y ∧ y ≤ i.upper ∧ (i.closed = true ∨ i.lower < y ∧ y < i.upper)

namespace Binary64

/-- The digits and the exponent of a finite float: all digits are in use unless the exponent is the least. -/
structure Canonical (m : Nat) (e : Int) : Prop where
  below : m < 2 ^ 53
  full : 2 ^ 52 ≤ m ∨ e = -1074
  least : -1074 ≤ e
  most : e ≤ 971

/-- The bits of `m * 2 ^ e`, without a sign. -/
def bitsOf (m : Nat) (e : Int) : Nat := (e + 1074).toNat * Nat.pow 2 52 + m

variable {m n d a b k : Nat} {e : Int} {x : Float} {negative : Bool}

/-- A finite float is made of the sign, the exponent and the digits that it reads as. -/
theorem of_reading (read : reading x = .finite negative m e) :
    Canonical m e ∧ ofMagnitude negative (bitsOf m e) = x := by
  have bound := x.toBits.toNat_lt
  have whole : Float.ofBits (UInt64.ofNat x.toBits.toNat) = x := by rw [UInt64.ofNat_toNat, ofBits_toBits]
  unfold reading readingOfBits at read
  unfold ofMagnitude bitsOf
  generalize x.toBits.toNat = bits at read bound whole
  simp only [Nat.pow_eq, Nat.reducePow] at read bound ⊢
  split at read
  · split at read <;> cases read
  · split at read
    · obtain ⟨rfl, rfl, rfl⟩ := Reading.finite.inj read
      refine ⟨⟨by omega, .inr rfl, by omega, by omega⟩, ?_⟩
      rw [← whole]
      congr 2
      split <;> simp_all <;> omega
    · obtain ⟨rfl, rfl, rfl⟩ := Reading.finite.inj read
      refine ⟨⟨by omega, .inl (by omega), by omega, by omega⟩, ?_⟩
      rw [← whole]
      congr 2
      split <;> simp_all <;> omega

/-- A quotient that is at most a half away from a whole number is rounded to it, provided that the number
is even or the quotient is nearer than that. -/
theorem roundHalfEven_eq (positive : 0 < b) (low : 2 * k * b ≤ 2 * a + b) (high : 2 * a ≤ 2 * k * b + b)
    (tie : k % 2 = 0 ∨ 2 * k * b < 2 * a + b ∧ 2 * a < 2 * k * b + b) : roundHalfEven a b = k := by
  have split := Nat.div_add_mod a b
  have rest := Nat.mod_lt a positive
  unfold roundHalfEven
  generalize a / b = q at split
  generalize a % b = r at split rest
  have near : q ≤ k ∧ k ≤ q + 1 := by
    constructor
    · by_contra less
      have far : (k + 1) * b ≤ q * b := Nat.mul_le_mul_right b (by omega)
      grind
    · by_contra more
      have far : (q + 2) * b ≤ k * b := Nat.mul_le_mul_right b (by omega)
      grind
  obtain rfl | rfl : k = q ∨ k = q + 1 := by omega
  · have half : 2 * r ≤ b := by grind
    grind
  · have half : b ≤ 2 * r := by grind
    grind

theorem roundHalfEven_near {y : ℚ} (positive : 0 < b) (value : (a : ℚ) / b = y) (low : k - 1 / 2 ≤ y) (high : y ≤ k + 1 / 2)
    (tie : k % 2 = 0 ∨ k - 1 / 2 < y ∧ y < k + 1 / 2) : roundHalfEven a b = k := by
  have bottom : (0 : ℚ) < b := by exact_mod_cast positive
  have whole : (a : ℚ) = y * b := (div_eq_iff bottom.ne').mp value
  have below : (k - 1 / 2) * (b : ℚ) ≤ y * b := mul_le_mul_of_nonneg_right low bottom.le
  have above : y * b ≤ (k + 1 / 2) * (b : ℚ) := mul_le_mul_of_nonneg_right high bottom.le
  apply roundHalfEven_eq positive
  · have cast : (2 * k * b : ℚ) ≤ 2 * a + b := by linarith
    exact_mod_cast cast
  · have cast : (2 * a : ℚ) ≤ 2 * k * b + b := by linarith
    exact_mod_cast cast
  · refine tie.imp_right fun ⟨left, right⟩ => ?_
    have strictBelow : (k - 1 / 2) * (b : ℚ) < y * b := mul_lt_mul_of_pos_right left bottom
    have strictAbove : y * b < (k + 1 / 2) * (b : ℚ) := mul_lt_mul_of_pos_right right bottom
    constructor
    · have cast : (2 * k * b : ℚ) < 2 * a + b := by linarith
      exact_mod_cast cast
    · have cast : (2 * a : ℚ) < 2 * k * b + b := by linarith
      exact_mod_cast cast

theorem scaled_value (n : Nat) (positive : 0 < d) (e : Int) : 0 < (scaled n d e).2 ∧
    ((scaled n d e).1 : ℚ) / (scaled n d e).2 = (n / d : ℚ) / 2 ^ e := by
  unfold scaled
  rcases Int.le_total 0 e with up | down
  · obtain ⟨k, rfl⟩ := Int.eq_ofNat_of_zero_le up
    rw [if_pos up]
    refine ⟨Nat.mul_pos positive (Nat.two_pow_pos _), ?_⟩
    simp [div_div]
  · obtain ⟨k, same⟩ := Int.eq_ofNat_of_zero_le (Int.neg_nonneg.mpr down)
    obtain rfl : e = -(k : Int) := by omega
    by_cases zero : k = 0
    · subst zero
      simpa using positive
    · rw [if_neg (by omega)]
      refine ⟨positive, ?_⟩
      simp [div_mul_eq_mul_div]

/-- The first guess at the exponent of a quotient is right, or one too small. -/
theorem between_guess (some : 0 < n) (positive : 0 < d) {guess : Int} (guessed : guess = (Nat.log2 n : Int) - Nat.log2 d - 53) :
    2 ^ 52 ≤ (n / d : ℚ) / 2 ^ guess ∧ (n / d : ℚ) / 2 ^ guess < 2 ^ 54 := by
  have bottom : (0 : ℚ) < d := by exact_mod_cast positive
  have unit : (0 : ℚ) < 2 ^ guess := zpow_pos two_pos guess
  have nLow : (2 : ℚ) ^ (Nat.log2 n : Int) ≤ n := by exact_mod_cast Nat.log2_self_le (by omega)
  have nHigh : (n : ℚ) < 2 ^ (Nat.log2 n + 1 : Int) := by exact_mod_cast Nat.lt_log2_self
  have dLow : (2 : ℚ) ^ (Nat.log2 d : Int) ≤ d := by exact_mod_cast Nat.log2_self_le (by omega)
  have dHigh : (d : ℚ) < 2 ^ (Nat.log2 d + 1 : Int) := by exact_mod_cast Nat.lt_log2_self
  constructor
  · rw [le_div_iff₀ unit, le_div_iff₀ bottom]
    calc (2 : ℚ) ^ 52 * 2 ^ guess * d ≤ 2 ^ 52 * 2 ^ guess * 2 ^ (Nat.log2 d + 1 : Int) := by gcongr
      _ = 2 ^ (Nat.log2 n : Int) := by
        rw [← zpow_natCast, ← zpow_add₀ two_ne_zero, ← zpow_add₀ two_ne_zero]
        congr 1
        omega
      _ ≤ n := nLow
  · rw [div_lt_iff₀ unit, div_lt_iff₀ bottom]
    calc (n : ℚ) < 2 ^ (Nat.log2 n + 1 : Int) := nHigh
      _ = 2 ^ 54 * 2 ^ guess * 2 ^ (Nat.log2 d : Int) := by
        rw [← zpow_natCast, ← zpow_add₀ two_ne_zero, ← zpow_add₀ two_ne_zero]
        congr 1
        omega
      _ ≤ 2 ^ 54 * 2 ^ guess * d := by gcongr

/-- The exponent of a quotient leaves fifty-three digits before the point, unless it is the least. -/
theorem exponentOf_spec (some : 0 < n) (positive : 0 < d) : ∃ top : Int, exponentOf n d = max top (-1074) ∧
    2 ^ 52 ≤ (n / d : ℚ) / 2 ^ top ∧ (n / d : ℚ) / 2 ^ top < 2 ^ 53 := by
  obtain ⟨guess, guessed⟩ : ∃ guess : Int, guess = (Nat.log2 n : Int) - Nat.log2 d - 53 := ⟨_, rfl⟩
  obtain ⟨low, high⟩ := between_guess some positive guessed
  obtain ⟨bottom, value⟩ := scaled_value n positive guess
  have fits : (scaled n d guess).1 < (scaled n d guess).2 * Nat.pow 2 53 ↔ (n / d : ℚ) / 2 ^ guess < 2 ^ 53 := by
    rw [← value, div_lt_iff₀ (by exact_mod_cast bottom), mul_comm]
    exact_mod_cast Iff.rfl
  unfold exponentOf
  rw [← guessed]
  dsimp only
  by_cases small : (n / d : ℚ) / 2 ^ guess < 2 ^ 53
  · rw [if_pos (fits.mpr small)]
    exact ⟨guess, rfl, low, small⟩
  · rw [if_neg fun h => small (fits.mp h)]
    refine ⟨guess + 1, rfl, ?_⟩
    rw [zpow_add₀ two_ne_zero, zpow_one, ← div_div]
    rw [not_lt] at small
    constructor
    · linarith
    · linarith

theorem div_zpow_le {v : ℚ} (nonneg : 0 ≤ v) {top e : Int} {k : Nat} (less : top + k ≤ e) :
    v / 2 ^ e ≤ v / 2 ^ top / 2 ^ k := by
  rw [div_div, ← zpow_natCast, ← zpow_add₀ two_ne_zero]
  apply div_le_div_of_nonneg_left nonneg (zpow_pos two_pos _)
  exact zpow_le_zpow_right₀ one_le_two less

theorem nearestBits_of_scaled (some : 0 < n) (parts : scaled n d (exponentOf n d) = (a, b)) :
    nearestBits n d = min ((exponentOf n d + 1074).toNat * Nat.pow 2 52 + roundHalfEven a b) infinityBits := by
  unfold nearestBits
  rw [if_neg (Nat.pos_iff_ne_zero.mp some)]
  extract_lets exponent
  rw [show scaled n d exponent = (a, b) from parts]

/-- The interval around a number reaches half a unit up and down, but down from the least number with
all digits only a quarter, if the exponent can be less. -/
theorem of_covers (some : 0 < m) {y : ℚ} (inside : (Decimal.Interval.around m e).Covers (4 * y)) :
    m - 1 / 2 ≤ y ∧ y ≤ m + 1 / 2 ∧ (m % 2 = 0 ∨ m - 1 / 2 < y ∧ y < m + 1 / 2) ∧
      (m = 2 ^ 52 → -1074 < e → m - 1 / 4 ≤ y) := by
  have lower : (4 * m - 2 : ℚ) ≤ (Decimal.Interval.around m e).lower := by
    unfold Decimal.Interval.around
    dsimp only
    split
    · rw [Nat.cast_sub (by omega)]
      push_cast
      linarith
    · rw [Nat.cast_sub (by omega)]
      push_cast
      linarith
  have upper : ((Decimal.Interval.around m e).upper : ℚ) = 4 * m + 2 := by
    unfold Decimal.Interval.around
    push_cast
    rfl
  obtain ⟨left, right, strict⟩ := inside
  refine ⟨by linarith, by linarith, ?_, ?_⟩
  · rcases strict with closed | ⟨less, more⟩
    · exact .inl (of_decide_eq_true closed)
    · exact .inr ⟨by linarith, by linarith⟩
  · intro least more
    have narrow : ((Decimal.Interval.around m e).lower : ℚ) = 4 * m - 1 := by
      unfold Decimal.Interval.around
      rw [if_pos ⟨least, more⟩, Nat.cast_sub (by omega)]
      push_cast
      rfl
    linarith

theorem pow_two_fifty_two : Nat.pow 2 52 = 4503599627370496 := rfl

theorem Canonical.bitsOf_le (canonical : Canonical m e) : bitsOf m e ≤ infinityBits := by
  obtain ⟨below, full, least, most⟩ := canonical
  rw [bitsOf, infinityBits, pow_two_fifty_two]
  omega

/-- In the unit before, a quotient just below a power of two is rounded up to it. The carry raises the exponent. -/
theorem nearestBits_carried (canonical : Canonical (2 ^ 52) e) (top : 0 < n) (positive : 0 < d)
    (before : exponentOf n d = e - 1) (near : 2 ^ 52 - 1 / 4 ≤ (n / d : ℚ) / 2 ^ e)
    (below : (n / d : ℚ) / 2 ^ (e - 1) < 2 ^ 53) : nearestBits n d = bitsOf (2 ^ 52) e := by
  obtain ⟨unit, value⟩ := scaled_value n positive (exponentOf n d)
  have bits := nearestBits_of_scaled top (Prod.mk.eta (p := scaled n d (exponentOf n d))).symm
  have twice : (n / d : ℚ) / 2 ^ (e - 1) = 2 * ((n / d : ℚ) / 2 ^ e) := by
    rw [zpow_sub₀ two_ne_zero]
    field_simp
  rw [before] at unit value bits
  rw [twice] at value below
  have carried := roundHalfEven_near (k := 2 ^ 53) unit value (by push_cast; linarith) (by push_cast; linarith)
    (.inl (by norm_num))
  have same : (e - 1 + 1074).toNat * Nat.pow 2 52 + 2 ^ 53 = bitsOf (2 ^ 52) e := by
    have least := canonical.least
    have more : -1074 ≤ exponentOf n d := by
      obtain ⟨lead, exponent, -⟩ := exponentOf_spec top positive
      omega
    rw [bitsOf, pow_two_fifty_two]
    omega
  rw [bits, carried, same]
  exact min_eq_left canonical.bitsOf_le

/-- What lies in the interval around a canonical number is rounded to it. Just below a power of two the
exponent of the quotient is one less, and the carry out of its digits makes up for that. -/
theorem nearestBits_eq (canonical : Canonical m e) (some : 0 < m) (top : 0 < n) (positive : 0 < d)
    (inside : (Decimal.Interval.around m e).Covers ((n / d : ℚ) / 2 ^ (e - 2))) : nearestBits n d = bitsOf m e := by
  obtain ⟨lead, exponent, low, high⟩ := exponentOf_spec top positive
  have least := canonical.least
  have below : (m : ℚ) + 1 ≤ 2 ^ 53 := by exact_mod_cast canonical.below
  have units : (n / d : ℚ) / 2 ^ (e - 2) = 4 * ((n / d : ℚ) / 2 ^ e) := by
    rw [zpow_sub₀ two_ne_zero]
    field_simp
    norm_num
  rw [units] at inside
  obtain ⟨left, right, tie, narrow⟩ := of_covers some inside
  have smaller : ∀ {unit unit' : Int} {k : Nat}, unit + k ≤ unit' →
      (n / d : ℚ) / 2 ^ unit' ≤ (n / d : ℚ) / 2 ^ unit / 2 ^ k :=
    div_zpow_le (div_nonneg (Nat.cast_nonneg n) (Nat.cast_nonneg d))
  have atMost : exponentOf n d ≤ e := by
    by_contra more
    have half := smaller (show e + (1 : Nat) ≤ lead by omega)
    linarith
  rcases Int.lt_or_eq_of_le atMost with less | same
  · have half := smaller (show lead + (1 : Nat) ≤ e by omega)
    obtain rfl : m = 2 ^ 52 := by
      have few : (m : ℚ) < 2 ^ 52 + 1 := by linarith
      have few' : m < 2 ^ 52 + 1 := by exact_mod_cast few
      have full := canonical.full
      omega
    have quarter := narrow rfl (by omega)
    push_cast at quarter
    obtain rfl : lead = e - 1 := by
      by_contra other
      have far := smaller (show lead + (2 : Nat) ≤ e by omega)
      linarith
    exact nearestBits_carried canonical top positive (by omega) quarter high
  · obtain ⟨unit, value⟩ := scaled_value n positive (exponentOf n d)
    have bits := nearestBits_of_scaled top (Prod.mk.eta (p := scaled n d (exponentOf n d))).symm
    rw [same] at unit value
    rw [bits, same, roundHalfEven_near unit value left right tie]
    exact min_eq_left canonical.bitsOf_le

end Binary64

end ActionGraph
