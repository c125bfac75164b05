/-!
The exact value behind a 64-bit float, and the float nearest to an exact quotient. Both work on
the bit pattern in natural number arithmetic, so what they compute can be reasoned about.
-/

namespace ActionGraph.Binary64

/-- What a float stands for: `finite s m e` is `m * 2 ^ e`, negated when `s` holds. -/
inductive Reading where
  | nan
  | infinite (negative : Bool)
  | finite (negative : Bool) (mantissa : Nat) (exponent : Int)
  deriving DecidableEq, Repr

/-- The reading of a bit pattern: sign, eleven exponent bits, fifty-two fraction bits. -/
def readingOfBits (bits : Nat) : Reading :=
  let negative : Bool := bits / Nat.pow 2 63 % 2 = 1
  let biased : Nat := bits / Nat.pow 2 52 % Nat.pow 2 11
  let fraction : Nat := bits % Nat.pow 2 52
  if biased = 2047 then if fraction = 0 then .infinite negative else .nan
  else if biased = 0 then .finite negative fraction (-1074)
  else .finite negative (Nat.pow 2 52 + fraction) ((biased : Int) - 1075)

def reading (x : Float) : Reading := readingOfBits x.toBits.toNat

/-- A quotient scaled by a power of two, as numerator and denominator of `n / d / 2 ^ e`. -/
def scaled (n d : Nat) (e : Int) : Nat × Nat :=
  if 0 ≤ e then (n, d * Nat.pow 2 e.toNat) else (n * Nat.pow 2 (-e).toNat, d)

/-- The quotient `n / d` rounded to a whole number, a half going to the even neighbour. -/
def roundHalfEven (n d : Nat) : Nat :=
  let q := n / d
  let r := n % d
  if 2 * r < d then q else if d < 2 * r then q + 1 else q + q % 2

/-- The exponent at which `n / d` has fifty-three digits before the binary point, but never less
than the least exponent of a float. -/
def exponentOf (n d : Nat) : Int :=
  let e := (Nat.log2 n : Int) - Nat.log2 d - 53
  let (a, b) := scaled n d e
  max (if a < b * Nat.pow 2 53 then e else e + 1) (-1074)

def infinityBits : Nat := 2047 * Nat.pow 2 52

/-- The bits of the float nearest to `n / d`, without its sign. The exponent field and the
rounded digits are added, so a carry out of the digits raises the exponent by itself. -/
def nearestBits (n d : Nat) : Nat :=
  if n = 0 then 0
  else
    let e := exponentOf n d
    let (a, b) := scaled n d e
    min ((e + 1074).toNat * Nat.pow 2 52 + roundHalfEven a b) infinityBits

def ofMagnitude (negative : Bool) (bits : Nat) : Float :=
  Float.ofBits (UInt64.ofNat (if negative then Nat.pow 2 63 + bits else bits))

/-- The float nearest to `n / d`, ties to even, infinite when it is too large for a float. -/
def nearest (negative : Bool) (n d : Nat) : Float :=
  ofMagnitude negative (nearestBits n d)

def infinity (negative : Bool) : Float := ofMagnitude negative infinityBits

def nan : Float := Float.ofBits 0x7FF8000000000000

def ofInt? (n : Int) : Option Float :=
  if nearestBits n.natAbs 1 < infinityBits then some (nearest (n < 0) n.natAbs 1) else none

/-- The float nearest to a quotient of integers, if it is not too large. A zero has the sign of
the numerator's zero, which is positive. -/
def quotient? (n : Int) (d : Nat) : Option Float :=
  if nearestBits n.natAbs d < infinityBits then some (nearest (n < 0) n.natAbs d) else none

def toInt? (x : Float) : Option Int :=
  match reading x with
  | .finite negative m e =>
    let whole : Option Nat :=
      if 0 ≤ e then some (m * Nat.pow 2 e.toNat)
      else if m % Nat.pow 2 (-e).toNat = 0 then some (m / Nat.pow 2 (-e).toNat) else none
    whole.map fun n => if negative then -(n : Int) else n
  | _ => none

end ActionGraph.Binary64
