import ActionGraph.Decimal.Digits

/-!
How a float is laid out as text. One printer serves every output; the outputs differ in a
`Layout`, which says where positional notation ends and how exponents are written.
-/

namespace ActionGraph.Decimal

structure Layout where
  positionalFrom : Int
  positionalBelow : Int
  exponentWidth : Nat
  nan : String
  infinity : String
  deriving DecidableEq, Repr

def padded (width n : Nat) : List Char :=
  let ds := Nat.toDigits 10 n
  List.replicate (width - ds.length) '0' ++ ds

def positional (d : Digits) : List Char :=
  let ds := Nat.toDigits 10 d.digits
  if 0 ≤ d.exponent then ds ++ List.replicate d.exponent.toNat '0' ++ ['.', '0']
  else
    let places := (-d.exponent).toNat
    let padding := List.replicate (places + 1 - ds.length) '0'
    let all := padding ++ ds
    all.take (all.length - places) ++ '.' :: all.drop (all.length - places)

def scientific (width : Nat) (d : Digits) : List Char :=
  let ds := Nat.toDigits 10 d.digits
  let fraction := if ds.length ≤ 1 then [] else '.' :: ds.drop 1
  let k := d.leading
  ds.take 1 ++ fraction ++ ['e', if k < 0 then '-' else '+'] ++ padded width k.natAbs

def Layout.decimal (l : Layout) (d : Digits) : List Char :=
  if d.digits = 0 then ['0', '.', '0']
  else if l.positionalFrom ≤ d.leading ∧ d.leading < l.positionalBelow then positional d
  else scientific l.exponentWidth d

def Layout.render (l : Layout) (x : Float) : String :=
  let signed (negative : Bool) (body : String) := if negative then "-" ++ body else body
  match Binary64.reading x with
  | .nan => l.nan
  | .infinite negative => signed negative l.infinity
  | .finite negative m e => signed negative (String.ofList (l.decimal (if m = 0 then ⟨0, 0⟩ else shortest m e)))

/-- Floats in messages and shown values: positional from 0.0001 to below 10 ^ 16. -/
def valueLayout : Layout := ⟨-4, 16, 2, "nan", "inf"⟩

/-- Floats in graph documents, one place further down and without padding of the exponent. A
document writes no other floats than finite ones. -/
def documentLayout : Layout := ⟨-5, 16, 1, "null", "null"⟩

def dataLayout : Layout := ⟨-4, 16, 2, "NaN", "Infinity"⟩

end ActionGraph.Decimal
