import ActionGraph.Json.Basic
import ActionGraph.Decimal.Numeral

/-!
Reading JSON. A number with a point or an exponent is a float, any other an integer. Besides the
standard's values the three names `NaN`, `Infinity` and `-Infinity` are floats. Of members with
one name the last counts, at the place of the first. Refused are lists and objects nested deeper
than a given limit, and numbers whose whole part is too long.
-/

namespace ActionGraph.Json

def skipBlanks : List Char → List Char
  | ' ' :: cs => skipBlanks cs
  | '\t' :: cs => skipBlanks cs
  | '\n' :: cs => skipBlanks cs
  | '\r' :: cs => skipBlanks cs
  | cs => cs

def hexValue? (c : Char) : Option Nat :=
  if '0' ≤ c ∧ c ≤ '9' then some (c.toNat - 48)
  else if 'a' ≤ c ∧ c ≤ 'f' then some (c.toNat - 87)
  else if 'A' ≤ c ∧ c ≤ 'F' then some (c.toNat - 55)
  else none

def unit? (a b c d : Char) : Option Nat := do
  let a ← hexValue? a
  let b ← hexValue? b
  let c ← hexValue? c
  let d ← hexValue? d
  return ((a * 16 + b) * 16 + c) * 16 + d

def plainEscape? (c : Char) : Option Char :=
  if c = '"' ∨ c = '\\' ∨ c = '/' then some c
  else if c = 'b' then some '\x08'
  else if c = 'f' then some '\x0c'
  else if c = 'n' then some '\n'
  else if c = 'r' then some '\r'
  else if c = 't' then some '\t'
  else none

/-- A string after its opening quote, and the text after the closing one. Code units beyond the
basic plane come as a pair; half a pair is refused, and so is a bare control character. -/
def readText : List Char → Option (List Char × List Char)
  | [] => none
  | '"' :: cs => some ([], cs)
  | '\\' :: 'u' :: a :: b :: c :: d :: cs =>
    match unit? a b c d with
    | none => none
    | some high =>
      if 0xD800 ≤ high ∧ high < 0xDC00 then
        match cs with
        | '\\' :: 'u' :: a' :: b' :: c' :: d' :: cs' =>
          match unit? a' b' c' d' with
          | some low =>
            if 0xDC00 ≤ low ∧ low < 0xE000 then
              (readText cs').map fun r =>
                (Char.ofNat (0x10000 + (high - 0xD800) * 0x400 + (low - 0xDC00)) :: r.1, r.2)
            else none
          | none => none
        | _ => none
      else if 0xDC00 ≤ high ∧ high < 0xE000 then none
      else (readText cs).map fun r => (Char.ofNat high :: r.1, r.2)
  | '\\' :: c :: cs =>
    match plainEscape? c with
    | some e => (readText cs).map fun r => (e :: r.1, r.2)
    | none => none
  | c :: cs => if c.toNat < 0x20 ∨ c = '\\' then none else (readText cs).map fun r => (c :: r.1, r.2)

/-- Digits at the start of a text: their value in front of digits read before, and their count. -/
def readDigits (value count : Nat) : List Char → Nat × Nat × List Char
  | [] => (value, count, [])
  | c :: cs =>
    match Text.asciiDigit? c with
    | some d => readDigits (10 * value + d) (count + 1) cs
    | none => (value, count, c :: cs)

def readExponent (cs : List Char) : Option (Int × List Char) :=
  let (negative, rest) := Decimal.takeSign cs
  let (value, count, rest) := readDigits 0 0 rest
  if count = 0 then none else some (if negative then -(value : Int) else value, rest)

/-- The most digits that an integer may have. A float may have any number of them. -/
def longestInteger : Nat := 4300

/-- The number after its sign. A leading zero stands alone before the point. -/
def readNumber (negative : Bool) (cs : List Char) : Option (Json × List Char) :=
  let (whole, count, rest) := readDigits 0 0 cs
  if count = 0 ∨ (1 < count ∧ cs.head? = some '0') then none
  else
    let fraction : Option (Decimal.Digits × Bool × List Char) :=
      match rest with
      | '.' :: rest =>
        let (value, places, rest) := readDigits whole 0 rest
        if places = 0 then none else some (⟨value, -(places : Int)⟩, true, rest)
      | rest => some (⟨whole, 0⟩, false, rest)
    match fraction with
    | none => none
    | some (d, pointed, rest) =>
      let scaled (cs : List Char) :=
        (readExponent cs).map fun r => (.float (Decimal.Digits.toFloat negative ⟨d.digits, d.exponent + r.1⟩), r.2)
      match rest with
      | 'e' :: cs => scaled cs
      | 'E' :: cs => scaled cs
      | rest =>
        if pointed then some (.float (d.toFloat negative), rest)
        else if longestInteger < count then none
        else some (.int (if negative then -(whole : Int) else whole), rest)

def readScalar : List Char → Option (Json × List Char)
  | 'n' :: 'u' :: 'l' :: 'l' :: cs => some (.null, cs)
  | 't' :: 'r' :: 'u' :: 'e' :: cs => some (.bool true, cs)
  | 'f' :: 'a' :: 'l' :: 's' :: 'e' :: cs => some (.bool false, cs)
  | 'N' :: 'a' :: 'N' :: cs => some (.float Binary64.nan, cs)
  | 'I' :: 'n' :: 'f' :: 'i' :: 'n' :: 'i' :: 't' :: 'y' :: cs => some (.float (Binary64.infinity false), cs)
  | '-' :: 'I' :: 'n' :: 'f' :: 'i' :: 'n' :: 'i' :: 't' :: 'y' :: cs =>
    some (.float (Binary64.infinity true), cs)
  | '-' :: cs => readNumber true cs
  | cs => readNumber false cs

mutual

/-- A value and the text after it. `depth` is how many more levels may be opened. The fuel bounds
the calls; twice the length of the text is enough, as every second call takes a character. -/
def readValue : (fuel depth : Nat) → List Char → Option (Json × List Char)
  | 0, _, _ => none
  | fuel + 1, depth, cs =>
    match skipBlanks cs with
    | '"' :: rest => (readText rest).map fun r => (.str (String.ofList r.1), r.2)
    | '[' :: rest =>
      match depth with
      | 0 => none
      | depth + 1 =>
        match skipBlanks rest with
        | ']' :: rest => some (.arr [], rest)
        | rest => (readItems fuel depth rest).map fun r => (.arr r.1, r.2)
    | '\x7b' :: rest =>
      match depth with
      | 0 => none
      | depth + 1 =>
        match skipBlanks rest with
        | '\x7d' :: rest => some (.obj [], rest)
        | rest => (readMembers fuel depth rest).map fun r => (.obj (Keyed.ofList r.1), r.2)
    | rest => readScalar rest

def readItems : (fuel depth : Nat) → List Char → Option (List Json × List Char)
  | 0, _, _ => none
  | fuel + 1, depth, cs => do
    let (item, rest) ← readValue fuel depth cs
    match skipBlanks rest with
    | ']' :: rest => some ([item], rest)
    | ',' :: rest =>
      let (items, rest) ← readItems fuel depth rest
      return (item :: items, rest)
    | _ => none

def readMembers : (fuel depth : Nat) → List Char → Option (List (String × Json) × List Char)
  | 0, _, _ => none
  | fuel + 1, depth, cs =>
    match skipBlanks cs with
    | '"' :: rest => do
      let (name, rest) ← readText rest
      match skipBlanks rest with
      | ':' :: rest =>
        let (value, rest) ← readValue fuel depth rest
        match skipBlanks rest with
        | '\x7d' :: rest => some ([(String.ofList name, value)], rest)
        | ',' :: rest =>
          let (members, rest) ← readMembers fuel depth rest
          return ((String.ofList name, value) :: members, rest)
        | _ => none
      | _ => none
    | _ => none

end

/-- The value a whole text stands for, nested at most `depth` levels deep. -/
def parse? (depth : Nat) (text : String) : Option Json :=
  let cs := text.toList
  match readValue (2 * cs.length + 2) depth cs with
  | some (j, rest) => if skipBlanks rest = [] then some j else none
  | none => none

def documentDepth : Nat := 200

end ActionGraph.Json
