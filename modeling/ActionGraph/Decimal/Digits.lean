import ActionGraph.Binary64.Basic

/-!
The shortest decimal that reads back as a given float. Grids of one, two and up to seventeen
digits are tried in turn; on the first grid with a point inside the interval that rounds to the
float, the point nearest to the float is taken, and of two equally near ones the even.
-/

namespace ActionGraph.Decimal

/-- A decimal `digits * 10 ^ exponent`. -/
structure Digits where
  digits : Nat
  exponent : Int
  deriving DecidableEq, Repr

def digitCount (n : Nat) : Nat := (Nat.toDigits 10 n).length

def Digits.leading (d : Digits) : Int := d.exponent + digitCount d.digits - 1

/-- The largest `k` with `10 ^ k ≤ n / d`, for a positive quotient. -/
def magnitude (n d : Nat) : Int :=
  if d ≤ n then (digitCount (n / d) : Int) - 1
  else
    let k := digitCount (d / n)
    if d ≤ n * Nat.pow 10 (k - 1) then -((k : Int) - 1) else -(k : Int)

/-- The reals that round to `m * 2 ^ e`, in units of `2 ^ (e - 2)`: lower end, middle, upper end.
Below a power of two the neighbour is only half as far. The ends belong to it iff `m` is even. -/
structure Interval where
  lower : Nat
  middle : Nat
  upper : Nat
  closed : Bool
  deriving DecidableEq, Repr

/-- The interval of the reals that round to `m * 2 ^ e`. -/
def Interval.around (m : Nat) (e : Int) : Interval where
  lower := if m = Nat.pow 2 52 ∧ -1074 < e then 4 * m - 1 else 4 * m - 2
  middle := 4 * m
  upper := 4 * m + 2
  closed := m % 2 = 0

/-- Whether the value `a / b`, in the interval's units, lies in it. -/
def Interval.holds (i : Interval) (a b : Nat) : Bool :=
  if i.closed then i.lower * b ≤ a && a ≤ i.upper * b
  else i.lower * b < a && a < i.upper * b

/-- Numerator and denominator of `n * 10 ^ k` in units of `2 ^ u`. -/
def gridPoint (n : Nat) (k u : Int) : Nat × Nat :=
  let ten := if 0 ≤ k then (n * Nat.pow 10 k.toNat, 1) else (n, Nat.pow 10 (-k).toNat)
  if 0 ≤ u then (ten.1, ten.2 * Nat.pow 2 u.toNat) else (ten.1 * Nat.pow 2 (-u).toNat, ten.2)

/-- The point of the grid `10 ^ k` that lies in the interval and is nearest to its middle. -/
def onGrid? (i : Interval) (k u : Int) : Option Nat :=
  let one := gridPoint 1 k u
  let below := i.middle * one.2 / one.1
  let rest := i.middle * one.2 % one.1
  let lowIn := below ≠ 0 ∧ i.holds (below * one.1) one.2
  let highIn := i.holds ((below + 1) * one.1) one.2
  if lowIn ∧ highIn then
    if 2 * rest < one.1 then some below
    else if one.1 < 2 * rest then some (below + 1)
    else some (below + below % 2)
  else if lowIn then some below
  else if highIn then some (below + 1)
  else none

/-- A decimal without the zeros at its end, of which at most `fuel` are dropped. -/
def Digits.trim : (fuel : Nat) → Digits → Digits
  | 0, d => d
  | fuel + 1, d => if d.digits ≠ 0 ∧ d.digits % 10 = 0 then trim fuel ⟨d.digits / 10, d.exponent + 1⟩ else d

/-- The shortest decimal that reads back as `m * 2 ^ e`. Seventeen digits always suffice, so the
last alternative, the value's own digits, is not reached for a float. -/
def shortest (m : Nat) (e : Int) : Digits :=
  let i := Interval.around m e
  let value := gridPoint m 0 (-e)
  let top := magnitude value.1 value.2
  let found := (List.range 17).findSome? fun (n : Nat) =>
    let k : Int := top - n
    (onGrid? i k (e - 2)).map fun d => Digits.trim 20 ⟨d, k⟩
  found.getD ⟨m, 0⟩

end ActionGraph.Decimal
