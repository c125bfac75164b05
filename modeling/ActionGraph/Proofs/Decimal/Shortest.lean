import ActionGraph.Decimal.Numeral
import ActionGraph.Proofs.Binary64.Nearest

/-!
The shortest decimal of a float is read back as the float. Whatever grid its digits are found on, the
decimal lies in the interval of the numbers that are rounded to the float; and the grid of seventeen
digits is fine enough to have a point there.
-/

namespace ActionGraph.Decimal

open Binary64

/-- The number that a decimal stands for. -/
def Digits.value (d : Digits) : ℚ := d.digits * 10 ^ d.exponent

variable {a b n d m k : Nat} {e u grid : Int} {i : Interval} {x : Float} {negative : Bool}

theorem Interval.holds_iff (i : Interval) (positive : 0 < b) : i.holds a b = true ↔ i.Covers ((a : ℚ) / b) := by
  have bottom : (0 : ℚ) < b := by exact_mod_cast positive
  have low : (i.lower : ℚ) ≤ a / b ↔ i.lower * b ≤ a := by
    rw [le_div_iff₀ bottom]
    exact_mod_cast Iff.rfl
  have high : (a / b : ℚ) ≤ i.upper ↔ a ≤ i.upper * b := by
    rw [div_le_iff₀ bottom]
    exact_mod_cast Iff.rfl
  have above : (i.lower : ℚ) < a / b ↔ i.lower * b < a := by
    rw [lt_div_iff₀ bottom]
    exact_mod_cast Iff.rfl
  have below : (a / b : ℚ) < i.upper ↔ a < i.upper * b := by
    rw [div_lt_iff₀ bottom]
    exact_mod_cast Iff.rfl
  unfold holds Covers
  rw [low, high, above, below]
  cases i.closed with
  | true => simp
  | false =>
    simp only [Bool.false_eq_true, if_false, Bool.and_eq_true, decide_eq_true_eq, false_or]
    omega

theorem Interval.Covers.between {low y high : ℚ} (first : i.Covers low) (last : i.Covers high) (left : low ≤ y)
    (right : y ≤ high) : i.Covers y := by
  obtain ⟨bottom, _, strictBottom⟩ := first
  obtain ⟨_, top, strictTop⟩ := last
  refine ⟨bottom.trans left, right.trans top, ?_⟩
  rcases strictBottom with closed | ⟨less, _⟩
  · exact .inl closed
  · exact strictTop.imp_right fun ⟨_, more⟩ => ⟨less.trans_le left, right.trans_lt more⟩

theorem tens_value (n : Nat) {k : Int} {tens : Nat × Nat}
    (given : tens = if 0 ≤ k then (n * Nat.pow 10 k.toNat, 1) else (n, Nat.pow 10 (-k).toNat)) :
    0 < tens.2 ∧ (tens.1 : ℚ) / tens.2 = n * 10 ^ k := by
  subst given
  rcases Int.le_total 0 k with up | down
  · obtain ⟨j, rfl⟩ := Int.eq_ofNat_of_zero_le up
    simp [up]
  · obtain ⟨j, same⟩ := Int.eq_ofNat_of_zero_le (Int.neg_nonneg.mpr down)
    obtain rfl : k = -(j : Int) := by omega
    by_cases zero : j = 0
    · subst zero
      simp
    · rw [if_neg (by omega)]
      refine ⟨Nat.pow_pos (by omega), ?_⟩
      simp [div_eq_mul_inv]

theorem gridPoint_value (n : Nat) (k u : Int) : 0 < (gridPoint n k u).2 ∧
    ((gridPoint n k u).1 : ℚ) / (gridPoint n k u).2 = n * 10 ^ k / 2 ^ u := by
  obtain ⟨positive, value⟩ := tens_value n (k := k) rfl
  obtain ⟨bottom, same⟩ := scaled_value _ positive u
  exact ⟨bottom, same.trans (congrArg (· / 2 ^ u) value)⟩

theorem pow_digitCount_le (some : 0 < n) : 10 ^ (digitCount n - 1) ≤ n := by
  by_contra less
  have positive : 0 < digitCount n := Nat.length_toDigits_pos
  by_cases one : digitCount n = 1
  · rw [one] at less
    omega
  · have short := (Nat.length_toDigits_le_iff (by decide) (by omega)).mpr (Nat.lt_of_not_le less)
    unfold digitCount at *
    omega

theorem lt_pow_digitCount (n : Nat) : n < 10 ^ digitCount n :=
  (Nat.length_toDigits_le_iff (by decide) Nat.length_toDigits_pos).mp (Nat.le_refl _)

theorem magnitude_le (some : 0 < n) (positive : 0 < d) : (10 : ℚ) ^ magnitude n d ≤ n / d := by
  have top : (0 : ℚ) < n := by exact_mod_cast some
  have bottom : (0 : ℚ) < d := by exact_mod_cast positive
  have below : ∀ {k : Nat}, d ≤ n * 10 ^ k → (10 : ℚ) ^ (-(k : Int)) ≤ n / d := by
    intro k fits
    rw [zpow_neg, zpow_natCast, le_div_iff₀ bottom, inv_mul_le_iff₀ (by positivity), mul_comm]
    exact_mod_cast fits
  unfold magnitude
  dsimp only
  split
  · rename_i whole
    have quotient : 0 < n / d := Nat.div_pos whole positive
    have count : 0 < digitCount (n / d) := Nat.length_toDigits_pos
    have fits : 10 ^ (digitCount (n / d) - 1) * d ≤ n :=
      (Nat.mul_le_mul_right d (pow_digitCount_le quotient)).trans (Nat.div_mul_le_self n d)
    rw [show (digitCount (n / d) : Int) - 1 = (digitCount (n / d) - 1 : Nat) by omega, zpow_natCast, le_div_iff₀ bottom]
    exact_mod_cast fits
  · split
    · rename_i fits
      have count : 0 < digitCount (d / n) := Nat.length_toDigits_pos
      rw [show -((digitCount (d / n) : Int) - 1) = -((digitCount (d / n) - 1 : Nat) : Int) by omega]
      exact below fits
    · apply below
      have above : d / n < 10 ^ digitCount (d / n) := lt_pow_digitCount _
      rw [Nat.div_lt_iff_lt_mul some, Nat.mul_comm] at above
      omega

theorem gridStep_pos (grid u : Int) : (0 : ℚ) < 10 ^ grid / 2 ^ u :=
  div_pos (zpow_pos (by norm_num) grid) (zpow_pos two_pos u)

theorem holds_gridPoint (i : Interval) (grid u : Int) (n : Nat) :
    i.holds (n * (gridPoint 1 grid u).1) (gridPoint 1 grid u).2 = true ↔ i.Covers (n * (10 ^ grid / 2 ^ u)) := by
  obtain ⟨bottom, value⟩ := gridPoint_value 1 grid u
  rw [i.holds_iff bottom, Nat.cast_mul, mul_div_assoc, value, Nat.cast_one, one_mul]

theorem onGrid?_covers (found : onGrid? i grid u = some n) : 0 < n ∧ i.Covers (n * (10 ^ grid / 2 ^ u)) := by
  have covers := holds_gridPoint i grid u
  unfold onGrid? at found
  dsimp only at found
  generalize i.middle * (gridPoint 1 grid u).2 / (gridPoint 1 grid u).1 = below at found
  split at found
  · rename_i both
    obtain ⟨⟨some, low⟩, high⟩ := both
    have either : n = below ∨ n = below + 1 := by
      split at found
      · exact .inl (Option.some.inj found).symm
      · split at found
        · exact .inr (Option.some.inj found).symm
        · have same := Option.some.inj found
          omega
    rcases either with rfl | rfl
    · exact ⟨Nat.pos_of_ne_zero some, (covers _).mp low⟩
    · exact ⟨Nat.succ_pos _, (covers _).mp high⟩
  · split at found
    · rename_i low
      obtain rfl := Option.some.inj found
      exact ⟨Nat.pos_of_ne_zero low.1, (covers _).mp low.2⟩
    · split at found
      · rename_i high
        obtain rfl := Option.some.inj found
        exact ⟨Nat.succ_pos _, (covers _).mp high⟩
      · cases found

/-- Of the two points of a grid around the middle of an interval, one lies in the interval: otherwise they would
be farther apart than its ends. -/
theorem Interval.Covers.either {step : ℚ} {below : Nat} (left : i.lower < i.middle) (right : i.middle < i.upper)
    (fine : step < i.upper - i.lower) (under : (below : ℚ) * step ≤ i.middle) (past : i.middle < (below + 1 : Nat) * step) :
    i.Covers (below * step) ∨ i.Covers ((below + 1 : Nat) * step) := by
  have leftward : (i.lower : ℚ) < i.middle := by exact_mod_cast left
  have rightward : (i.middle : ℚ) < i.upper := by exact_mod_cast right
  by_contra! neither
  obtain ⟨notLow, notHigh⟩ := neither
  have outside : (below : ℚ) * step ≤ i.lower := by
    by_contra! inside
    exact notLow ⟨inside.le, (under.trans_lt rightward).le, .inr ⟨inside, under.trans_lt rightward⟩⟩
  have above : (i.upper : ℚ) ≤ (below + 1 : Nat) * step := by
    by_contra! inside
    exact notHigh ⟨(leftward.trans past).le, inside.le, .inr ⟨leftward.trans past, inside⟩⟩
  push_cast at above
  linarith

theorem exists_onGrid (fine : (10 : ℚ) ^ grid / 2 ^ u < i.upper - i.lower) (fits : (10 : ℚ) ^ grid / 2 ^ u ≤ i.middle)
    (left : i.lower < i.middle) (right : i.middle < i.upper) : ∃ n, onGrid? i grid u = some n := by
  have covers := holds_gridPoint i grid u
  obtain ⟨bottom, value⟩ := gridPoint_value 1 grid u
  rw [Nat.cast_one, one_mul] at value
  have step := gridStep_pos grid u
  unfold onGrid?
  dsimp only
  generalize (gridPoint 1 grid u).1 = top at *
  generalize (gridPoint 1 grid u).2 = bot at *
  rw [← value] at covers fine fits step
  have bot' : (0 : ℚ) < bot := by exact_mod_cast bottom
  have top' : 0 < top := by
    apply Nat.pos_of_ne_zero
    rintro rfl
    simp at step
  have low := Nat.div_mul_le_self (i.middle * bot) top
  have high := Nat.lt_div_mul_add top' (a := i.middle * bot)
  have some : i.middle * bot / top ≠ 0 := by
    rw [div_le_iff₀ bot'] at fits
    have fits' : top ≤ i.middle * bot := by exact_mod_cast fits
    exact (Nat.div_pos fits' top').ne'
  generalize i.middle * bot / top = below at *
  have under : (below : ℚ) * (top / bot) ≤ i.middle := by
    rw [← mul_div_assoc, div_le_iff₀ bot']
    exact_mod_cast low
  have past : (i.middle : ℚ) < (below + 1 : Nat) * (top / bot) := by
    have high' : (i.middle * bot : ℚ) < below * top + top := by exact_mod_cast high
    rw [← mul_div_assoc, lt_div_iff₀ bot']
    push_cast
    linarith
  have either : i.holds (below * top) bot = true ∨ i.holds ((below + 1) * top) bot = true := by
    rw [covers, covers]
    exact Interval.Covers.either left right fine under past
  split
  · split
    · exact ⟨_, rfl⟩
    · split <;> exact ⟨_, rfl⟩
  · split
    · exact ⟨_, rfl⟩
    · rename_i notLow
      have high : i.holds ((below + 1) * top) bot = true := either.resolve_left fun low => notLow ⟨some, low⟩
      exact ⟨_, if_pos high⟩

theorem trim_value (fuel : Nat) (d : Digits) : (d.trim fuel).value = d.value ∧ (0 < d.digits → 0 < (d.trim fuel).digits) := by
  induction fuel generalizing d with
  | zero => exact ⟨rfl, id⟩
  | succ fuel ih =>
    unfold Digits.trim
    split
    · rename_i ends
      obtain ⟨some, zero⟩ := ends
      obtain ⟨value, positive⟩ := ih ⟨d.digits / 10, d.exponent + 1⟩
      have tens : (d.digits : ℚ) = (d.digits / 10 : Nat) * 10 := by
        have whole : d.digits = d.digits / 10 * 10 := by omega
        exact_mod_cast whole
      refine ⟨value.trans ?_, fun _ => positive (Nat.div_pos (by omega) (by omega))⟩
      rw [Digits.value, Digits.value, tens, zpow_add₀ (by norm_num), zpow_one]
      ring
    · exact ⟨rfl, id⟩

/-- The grid of seventeen digits has a point in the interval around a float. -/
theorem exists_seventeen (canonical : Canonical m e) (some : 0 < m) {top : Int} (low : (10 : ℚ) ^ top ≤ m * 2 ^ e) :
    ∃ n, onGrid? (.around m e) (top - 16) (e - 2) = Option.some n := by
  have unit : (0 : ℚ) < 2 ^ e := zpow_pos two_pos e
  have digits : (m : ℚ) < 2 ^ 53 := by exact_mod_cast canonical.below
  have positive : (0 : ℚ) < m := by exact_mod_cast some
  have step : (10 : ℚ) ^ (top - 16) / 2 ^ (e - 2) ≤ 4 * m / 10 ^ 16 := by
    rw [zpow_sub₀ (by norm_num), zpow_sub₀ two_ne_zero, div_le_iff₀ (by positivity)]
    have scaled : (10 : ℚ) ^ top / 10 ^ (16 : Int) ≤ m * 2 ^ e / 10 ^ (16 : Int) := by gcongr
    refine scaled.trans (le_of_eq ?_)
    norm_num
    ring
  have upper : ((Interval.around m e).upper : ℚ) = 4 * m + 2 := by
    unfold Interval.around
    push_cast
    rfl
  have middle : ((Interval.around m e).middle : ℚ) = 4 * m := by
    unfold Interval.around
    push_cast
    rfl
  apply exists_onGrid
  · rw [upper]
    unfold Interval.around
    dsimp only
    split
    · rename_i least
      rw [Nat.cast_sub (by omega), least.1]
      rw [least.1] at step
      push_cast at step ⊢
      norm_num at step ⊢
      linarith
    · rw [Nat.cast_sub (by omega)]
      push_cast
      linarith
  · rw [middle]
    linarith
  · unfold Interval.around
    dsimp only
    split <;> omega
  · unfold Interval.around
    dsimp only
    omega

/-- The shortest decimal of a float lies in the interval of the numbers that are rounded to it. -/
theorem shortest_covers (canonical : Canonical m e) (some : 0 < m) : 0 < (shortest m e).digits ∧
    (Interval.around m e).Covers ((shortest m e).value / 2 ^ (e - 2)) := by
  obtain ⟨bottom, value⟩ := gridPoint_value m 0 (-e)
  rw [zpow_zero, mul_one, zpow_neg, div_inv_eq_mul] at value
  have positive : (0 : ℚ) < m * 2 ^ e := mul_pos (by exact_mod_cast some) (zpow_pos two_pos e)
  have top : 0 < (gridPoint m 0 (-e)).1 := by
    apply Nat.pos_of_ne_zero
    intro zero
    rw [zero, Nat.cast_zero, zero_div] at value
    exact positive.ne value
  have low := value ▸ magnitude_le top bottom
  obtain ⟨n, last⟩ := exists_seventeen canonical some low
  unfold shortest
  dsimp only
  generalize magnitude (gridPoint m 0 (-e)).1 (gridPoint m 0 (-e)).2 = lead at *
  cases found : (List.range 17).findSome? _ with
  | none =>
    have none := List.findSome?_eq_none_iff.mp found 16 (by simp)
    simp [last] at none
  | some d =>
    obtain ⟨places, _, here⟩ := List.exists_of_findSome?_eq_some found
    obtain ⟨digits, grid, rfl⟩ := Option.map_eq_some_iff.mp here
    obtain ⟨atLeast, covers⟩ := onGrid?_covers grid
    obtain ⟨same, kept⟩ := trim_value 20 ⟨digits, lead - places⟩
    refine ⟨kept atLeast, ?_⟩
    rw [Option.getD_some, same, Digits.value, mul_div_assoc]
    exact covers

theorem Digits.value_bounds {d : Digits} (some : 0 < d.digits) :
    (10 : ℚ) ^ (d.exponent + digitCount d.digits - 1) ≤ d.value ∧ d.value < 10 ^ (d.exponent + digitCount d.digits) := by
  have count : 0 < digitCount d.digits := Nat.length_toDigits_pos
  have ten : (0 : ℚ) < 10 ^ d.exponent := zpow_pos (by norm_num) _
  have low : (10 : ℚ) ^ (digitCount d.digits - 1) ≤ d.digits := by exact_mod_cast pow_digitCount_le some
  have high : (d.digits : ℚ) < 10 ^ digitCount d.digits := by exact_mod_cast lt_pow_digitCount d.digits
  constructor
  · rw [show d.exponent + digitCount d.digits - 1 = (digitCount d.digits - 1 : Nat) + d.exponent by omega,
      zpow_add₀ (by norm_num), zpow_natCast]
    exact mul_le_mul_of_nonneg_right low ten.le
  · rw [add_comm, zpow_add₀ (by norm_num), zpow_natCast]
    exact mul_lt_mul_of_pos_right high ten

theorem covers_bounds (canonical : Canonical m e) (some : 0 < m) {v : ℚ}
    (inside : (Interval.around m e).Covers (v / 2 ^ (e - 2))) : (10 : ℚ) ^ (-400 : Int) < v ∧ v < 10 ^ (400 : Int) := by
  obtain ⟨low, high, _⟩ := inside
  have unit : (0 : ℚ) < 2 ^ (e - 2) := zpow_pos two_pos _
  rw [le_div_iff₀ unit] at low
  rw [div_le_iff₀ unit] at high
  have lower : (2 : ℚ) ≤ (Interval.around m e).lower := by
    have atLeast : 2 ≤ (Interval.around m e).lower := by
      unfold Interval.around
      dsimp only
      split <;> omega
    exact_mod_cast atLeast
  have upper : ((Interval.around m e).upper : ℚ) ≤ 2 ^ 56 := by
    have atMost : (Interval.around m e).upper ≤ 2 ^ 56 := by
      have below := canonical.below
      unfold Interval.around
      dsimp only
      omega
    exact_mod_cast atMost
  have least : (2 : ℚ) ^ (-1076 : Int) ≤ 2 ^ (e - 2) := zpow_le_zpow_right₀ one_le_two (by linarith [canonical.least])
  have most : (2 : ℚ) ^ (e - 2) ≤ 2 ^ (969 : Int) := zpow_le_zpow_right₀ one_le_two (by linarith [canonical.most])
  have tens : (2 : ℚ) ^ (1200 : Int) ≤ 10 ^ (400 : Int) := by
    rw [show (1200 : Int) = 3 * 400 by norm_num, zpow_mul]
    exact zpow_le_zpow_left₀ (by norm_num) (by norm_num) (by norm_num)
  constructor
  · calc (10 : ℚ) ^ (-400 : Int) ≤ 2 ^ (-1200 : Int) := by
          rw [zpow_neg, zpow_neg]
          exact inv_anti₀ (zpow_pos two_pos _) tens
      _ < 2 ^ (-1076 : Int) := zpow_lt_zpow_right₀ one_lt_two (by norm_num)
      _ ≤ 2 ^ (e - 2) := least
      _ ≤ (Interval.around m e).lower * 2 ^ (e - 2) := by nlinarith
      _ ≤ v := low
  · calc v ≤ (Interval.around m e).upper * 2 ^ (e - 2) := high
      _ ≤ 2 ^ (56 : Int) * 2 ^ (969 : Int) := mul_le_mul upper most unit.le (by positivity)
      _ = 2 ^ (1025 : Int) := by rw [← zpow_add₀ two_ne_zero]; norm_num
      _ < 2 ^ (1200 : Int) := zpow_lt_zpow_right₀ one_lt_two (by norm_num)
      _ ≤ 10 ^ (400 : Int) := tens

theorem toFloat_eq (canonical : Canonical m e) (some : 0 < m) {d : Digits} (positive : 0 < d.digits)
    (inside : (Interval.around m e).Covers (d.value / 2 ^ (e - 2))) (negative : Bool) :
    d.toFloat negative = ofMagnitude negative (bitsOf m e) := by
  obtain ⟨low, high⟩ := Digits.value_bounds positive
  obtain ⟨small, large⟩ := covers_bounds canonical some inside
  have notLarge : d.exponent + digitCount d.digits ≤ 400 := by
    have less := (zpow_lt_zpow_iff_right₀ (by norm_num : (1 : ℚ) < 10)).mp (low.trans_lt large)
    omega
  have notSmall : -400 ≤ d.exponent + digitCount d.digits := by
    have more := (zpow_lt_zpow_iff_right₀ (by norm_num : (1 : ℚ) < 10)).mp (small.trans high)
    omega
  unfold Digits.toFloat
  rw [if_neg positive.ne']
  dsimp only
  rw [if_neg (by omega), if_neg (by omega)]
  have quotient : ∀ {a b : Nat}, 0 < a → 0 < b → (a / b : ℚ) = d.value →
      nearest negative a b = ofMagnitude negative (bitsOf m e) := by
    intro a b top bottom same
    rw [nearest, nearestBits_eq canonical some top bottom (same.symm ▸ inside)]
  obtain ⟨bottom, value⟩ := tens_value d.digits (k := d.exponent) rfl
  by_cases whole : 0 ≤ d.exponent
  · rw [if_pos whole] at value ⊢
    exact quotient (Nat.mul_pos positive (Nat.pow_pos (by norm_num))) Nat.one_pos value
  · rw [if_neg whole] at value bottom ⊢
    exact quotient positive bottom value

theorem toFloat_shortest (read : reading x = .finite negative m e) (some : 0 < m) {d : Digits} (positive : 0 < d.digits)
    (same : d.value = (shortest m e).value) : d.toFloat negative = x := by
  obtain ⟨canonical, made⟩ := of_reading read
  rw [toFloat_eq canonical some positive (same ▸ (shortest_covers canonical some).2), made]

theorem toFloat_zero (read : reading x = .finite negative 0 e) {d : Digits} (none : d.digits = 0) :
    d.toFloat negative = x := by
  obtain ⟨canonical, made⟩ := of_reading read
  have least : e = -1074 := canonical.full.resolve_left (by omega)
  rw [Digits.toFloat, if_pos none, ← made, bitsOf, least]
  rfl

end ActionGraph.Decimal
