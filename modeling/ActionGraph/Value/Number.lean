import ActionGraph.Fault
import ActionGraph.Decimal.Numeral

/-!
Numbers among the values, and the coercions that behaviors read their inputs with. Integers are
unbounded; an operation that has to bring one into the range of floats fails when it is too large,
and one that has to spell it fails when it is too long.
-/

namespace ActionGraph

inductive Number where
  | int (n : Int)
  | float (x : Float)
  deriving DecidableEq

namespace Number

def toValue : Number → Value
  | .int n => .int n
  | .float x => .float x

/-- The number a value is; a truth value counts as zero or one. -/
def ofValue? : Value → Option Number
  | .bool b => some (.int (if b then 1 else 0))
  | .int n => some (.int n)
  | .float x => some (.float x)
  | _ => none

/-- The number a text spells. A whole one is an integer; what is not a number is none. -/
def ofText? (s : String) : Option Number :=
  match Decimal.ofText? s with
  | none => none
  | some x =>
    match Binary64.toInt? x with
    | some n => some (.int n)
    | none => if x.isNaN then none else some (.float x)

def ofOctets? (octets : List UInt8) : Option Number :=
  if octets.all (· < 128) then ofText? (String.ofList (octets.map fun b => Char.ofNat b.toNat)) else none

def read? : Value → Option Number
  | .text s => ofText? s
  | .bytes octets => ofOctets? octets
  | v => ofValue? v

def toFloat : Number → Except Fault Float
  | .float x => .ok x
  | .int n =>
    match Binary64.ofInt? n with
    | some x => .ok x
    | none => .error .integerTooLarge

def add : Number → Number → Except Fault Number
  | .int a, .int b => .ok (.int (a + b))
  | a, b => do return .float ((← a.toFloat) + (← b.toFloat))

def mul : Number → Number → Except Fault Number
  | .int a, .int b => .ok (.int (a * b))
  | a, b => do return .float ((← a.toFloat) * (← b.toFloat))

/-- A number divided by a positive integer, always a float. An integer is not made a float first:
the quotient itself is rounded. -/
def div (a : Number) (d : Nat) : Except Fault Float :=
  match a with
  | .float x => do return x / (← toFloat (.int d))
  | .int n =>
    match Binary64.quotient? n d with
    | some x => .ok x
    | none => .error .quotientTooLarge

/-- A number, or zero if it is negative. What is not a number is not negative, nor is -0.0. -/
def atLeastZero : Number → Number
  | .int n => if n < 0 then .int 0 else .int n
  | .float x => if x < 0 then .int 0 else .float x

end Number

namespace Value

def coerceNumber (v default : Value) : Value :=
  match Number.read? v with
  | some n => n.toValue
  | none => default

def numberOr (v : Value) (default : Number) : Number := (Number.read? v).getD default

def spelled (v : Value) : Except Fault String :=
  if v.spellable then .ok v.display else .error .integerTooLong

def coerceText (v default : Value) : Except Fault Value :=
  match v with
  | .null => .ok default
  | v => v.spelled.map .text

/-- The text of a setting, or else the given text when there is none or it is null. Settings come
from documents, whose integers are all short enough to be spelled. -/
def textOr (v : Option Value) (default : String) : String :=
  match v with
  | none | some .null => default
  | some v => v.display

def toNumber (operator : String) (v : Value) : Except Fault Number :=
  match Number.ofValue? v with
  | some n => .ok n
  | none => .error (.wrongOperands operator v.qualifiedTypeName "float")

def repeated {α : Type} (k : Nat) (items : List α) : List α := (List.replicate k items).flatten

/-- A value so many times: multiplied if it is a number, repeated if it is a sequence. -/
def times (k : Nat) : Value → Except Fault Value
  | .text s => .ok (.text (String.ofList (repeated k s.toList)))
  | .list items => .ok (.list (repeated k items))
  | .tuple items => .ok (.tuple (repeated k items))
  | .bytes octets => .ok (.bytes (repeated k octets))
  | v =>
    match Number.ofValue? v with
    | some n => (n.mul (.int k)).map Number.toValue
    | none => .error (.wrongOperands "*" v.qualifiedTypeName "int")

def scaled (x : Float) : Value → Except Fault Float
  | .text _ | .list _ | .tuple _ | .bytes _ => .error (.notRepeatable "float")
  | v =>
    match Number.ofValue? v with
    | some n => do return x * (← n.toFloat)
    | none => .error (.wrongOperands "*" "float" v.qualifiedTypeName)

end Value

inductive Coercion where
  | number
  | text
  deriving DecidableEq, Repr

def Coercion.apply : Coercion → Value → Value → Except Fault Value
  | .number, v, d => .ok (v.coerceNumber d)
  | .text, v, d => v.coerceText d

end ActionGraph
