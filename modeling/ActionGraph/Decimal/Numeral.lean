import ActionGraph.Text.Class
import ActionGraph.Decimal.Digits

/-!
Reading a float from text. A fraction, an exponent and the names of infinity and of the float that
is not a number are understood. Which characters count as digits is a parameter. The two kinds of
text differ in their digits, and in where blanks and underscores may stand.
-/

namespace ActionGraph.Decimal

/-- The float nearest to `digits * 10 ^ exponent`. Far outside the range of floats the power of
ten is not computed: the answer is zero or infinity. -/
def Digits.toFloat (negative : Bool) (d : Digits) : Float :=
  if d.digits = 0 then Binary64.ofMagnitude negative 0
  else
    let top := d.exponent + digitCount d.digits
    if 400 < top then Binary64.infinity negative
    else if top < -400 then Binary64.ofMagnitude negative 0
    else if 0 ≤ d.exponent then Binary64.nearest negative (d.digits * Nat.pow 10 d.exponent.toNat) 1
    else Binary64.nearest negative d.digits (Nat.pow 10 (-d.exponent).toNat)

structure Run where
  value : Nat
  count : Nat
  rest : List Char
  deriving DecidableEq, Repr

def digitRun (digit : Char → Option Nat) (value count : Nat) : List Char → Run
  | [] => ⟨value, count, []⟩
  | c :: cs =>
    match digit c with
    | some n => digitRun digit (10 * value + n) (count + 1) cs
    | none =>
      match cs with
      | d :: ds =>
        if c = '_' ∧ count ≠ 0 then
          match digit d with
          | some n => digitRun digit (10 * value + n) (count + 1) ds
          | none => ⟨value, count, c :: cs⟩
        else ⟨value, count, c :: cs⟩
      | [] => ⟨value, count, c :: cs⟩

def takeSign : List Char → Bool × List Char
  | '-' :: cs => (true, cs)
  | '+' :: cs => (false, cs)
  | cs => (false, cs)

/-- The exponent at the end of a numeral: `none` if what is there is no exponent. -/
def exponentPart (digit : Char → Option Nat) : List Char → Option Int
  | [] => some 0
  | c :: cs =>
    if c = 'e' ∨ c = 'E' then
      let (negative, rest) := takeSign cs
      let run := digitRun digit 0 0 rest
      if run.count ≠ 0 ∧ run.rest = [] then some (if negative then -(run.value : Int) else run.value)
      else none
    else none

/-- The decimal that an unsigned numeral spells. At least one digit stands before or after the
point. -/
def unsigned? (digit : Char → Option Nat) (cs : List Char) : Option Digits :=
  let whole := digitRun digit 0 0 cs
  match whole.rest with
  | '.' :: rest =>
    let fraction := digitRun digit whole.value 0 rest
    if whole.count = 0 ∧ fraction.count = 0 then none
    else (exponentPart digit fraction.rest).map fun e => ⟨fraction.value, e - fraction.count⟩
  | rest =>
    if whole.count = 0 then none
    else (exponentPart digit rest).map fun e => ⟨whole.value, e⟩

def numeral? (digit : Char → Option Nat) (text : List Char) : Option Float :=
  let (negative, body) := takeSign text
  let word := String.ofList (body.map Char.toLower)
  if word = "inf" ∨ word = "infinity" then some (Binary64.infinity negative)
  else if word = "nan" then some Binary64.nan
  else (unsigned? digit body).map (Digits.toFloat negative)

def ofText? (s : String) : Option Float := numeral? Text.digit? (Text.strip s.toList)

def doubled : List Char → Bool
  | '_' :: '_' :: _ => true
  | _ :: cs => doubled cs
  | [] => false

def parted (cs : List Char) : Bool :=
  cs.head? != some '_' && cs.getLast? != some '_' && !doubled cs

/-- The float that a text spells in digits `0` to `9`. It has either blanks around it or single
underscores inside it, and these may part any two characters. -/
def ofAscii? (s : String) : Option Float :=
  let cs := s.toList
  if cs.contains '_' then
    if parted cs then numeral? Text.asciiDigit? (cs.filter (· != '_')) else none
  else numeral? Text.asciiDigit? (Text.strip cs)

end ActionGraph.Decimal
