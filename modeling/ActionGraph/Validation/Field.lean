import ActionGraph.Validation.Issue
import ActionGraph.Value.Number

/-!
Lenient reading of fields. A field with two names is read under the first if that is there,
whatever it holds. What is wrong inside a field is reported under the name it was found by, a
missing field under its first name.
-/

namespace ActionGraph

namespace Validated

def text : Value → Validated String
  | .text s => .ok s
  | _ => broken .text

def dictionary : Value → Validated (List (Value × Value))
  | .dict entries => .ok entries
  | _ => broken .dictionary

def numeral (s : String) : Validated Float :=
  match Decimal.ofAscii? s with
  | some x => .ok x
  | none => broken .numeral

/-- A float from a number, a truth value or a text. `oversize` is what an integer comes to that is
too large for a float. -/
def number (oversize : Bool → Validated Float) : Value → Validated Float
  | .float x => .ok x
  | .int n =>
    match Binary64.ofInt? n with
    | some x => .ok x
    | none => oversize (n < 0)
  | .bool b => .ok (if b then 1 else 0)
  | .text s => numeral s
  | _ => broken .number

def documentNumber : Value → Validated Float := number fun negative => .ok (Binary64.infinity negative)

def valueNumber : Value → Validated Float := number fun _ => broken .number

def truthWords : List (String × Bool) :=
  [("1", true), ("true", true), ("t", true), ("yes", true), ("y", true), ("on", true),
   ("0", false), ("false", false), ("f", false), ("no", false), ("n", false), ("off", false)]

def truthOf? (n : Int) : Option Bool :=
  if n = 0 then some false else if n = 1 then some true else none

/-- A truth value, from zero, one or a word for it. Another whole number is refused as a word that
says neither, provided that it fits into 64 bits; the least number that does so counts only as an
integer, not as a float. -/
def truth : Value → Validated Bool
  | .bool b => .ok b
  | .int n =>
    match truthOf? n with
    | some b => .ok b
    | none => broken (if -(Int.pow 2 63) ≤ n ∧ n < Int.pow 2 63 then .truthWord else .truth)
  | .float x =>
    match Binary64.toInt? x with
    | none => broken .truth
    | some n =>
      match truthOf? n with
      | some b => .ok b
      | none => broken (if -(Int.pow 2 63) < n ∧ n < Int.pow 2 63 then .truthWord else .truth)
  | .text s =>
    match Keyed.get? (String.ofList (s.toList.map Char.toLower)) truthWords with
    | some b => .ok b
    | none => broken .truthWord
  | _ => broken .truth

end Validated

namespace Json

def members : Json → Validated (List (String × Json))
  | .obj members => .ok members
  | _ => .broken .model

def items {α : Type} (check : Json → Validated α) : Json → Validated (List α)
  | .arr items => Validated.items check 0 items
  | _ => .broken .list

/-- The name and the value of a field that may go by several names; the first name that is there
decides. -/
def field? (names : List String) (members : List (String × Json)) : Option (String × Json) :=
  names.findSome? fun name => (Keyed.get? name members).map fun value => (name, value)

def required {α : Type} (members : List (String × Json)) (name : String) (others : List String)
    (check : Json → Validated α) : Validated α :=
  match field? (name :: others) members with
  | some (found, j) => (check j).within (.field found)
  | none => (Validated.broken .required).within (.field name)

def optional {α : Type} (members : List (String × Json)) (name : String) (others : List String)
    (default : α) (check : Json → Validated α) : Validated α :=
  match field? (name :: others) members with
  | some (found, j) => (check j).within (.field found)
  | none => .ok default

def nullable {α : Type} (members : List (String × Json)) (name : String) (others : List String)
    (check : Json → Validated α) : Validated (Option α) :=
  optional members name others none fun
    | .null => .ok none
    | j => Validated.apply (.ok some) (check j)

end Json

end ActionGraph
