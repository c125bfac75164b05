/-!
What validation finds wrong with given data: the place, and the rule that the value there breaks.
-/

namespace ActionGraph

/-- One step into nested data: a field or an item. -/
inductive Segment where
  | field (name : String)
  | item (index : Nat)
  deriving DecidableEq, Repr

inductive Rule where
  | wellFormed
  | required
  | text
  | list
  | object
  | dictionary
  | model
  | pair
  /-- Too many items for a pair; how many there are is not always known. -/
  | pairLength (given : Option Nat)
  | portKind
  | portDirection
  | number
  | numeral
  | truth
  | truthWord
  deriving DecidableEq, Repr

def Rule.code : Rule → String
  | .wellFormed => "json_invalid"
  | .required => "missing"
  | .text => "string_type"
  | .list => "list_type"
  | .object => "dict_type"
  | .dictionary => "dict_type"
  | .model => "model_type"
  | .pair => "tuple_type"
  | .pairLength _ => "too_long"
  | .portKind => "literal_error"
  | .portDirection => "literal_error"
  | .number => "float_type"
  | .numeral => "float_parsing"
  | .truth => "bool_type"
  | .truthWord => "bool_parsing"

/-- What a broken rule asks for. How a malformed text fails is not told. -/
def Rule.message : Rule → String
  | .wellFormed => ""
  | .required => "Field required"
  | .text => "Input should be a valid string"
  | .list => "Input should be a valid array"
  | .object => "Input should be an object"
  | .dictionary => "Input should be a valid dictionary"
  | .model => "Input should be an object"
  | .pair => "Input should be a valid tuple"
  | .pairLength given =>
    "Tuple should have at most 2 items after validation, not " ++ given.elim "more" toString
  | .portKind => "Input should be 'exec', 'data', 'tool', 'resource' or 'error'"
  | .portDirection => "Input should be 'in' or 'out'"
  | .number => "Input should be a valid number"
  | .numeral => "Input should be a valid number, unable to parse string as a number"
  | .truth => "Input should be a valid boolean"
  | .truthWord => "Input should be a valid boolean, unable to interpret input"

structure Issue where
  rule : Rule
  path : List Segment
  deriving DecidableEq, Repr

/-- The result of checking data: a value, or all that is wrong in the order it was found. -/
inductive Validated (α : Type) where
  | ok (value : α)
  | invalid (issues : List Issue)

namespace Validated

def broken {α : Type} (rule : Rule) : Validated α := .invalid [⟨rule, []⟩]

/-- Applies a checked function to a checked value; the issues of both are kept, in order. -/
def apply {α β : Type} (f : Validated (α → β)) (x : Validated α) : Validated β :=
  match f, x with
  | .ok f, .ok x => .ok (f x)
  | .ok _, .invalid is => .invalid is
  | .invalid is, .ok _ => .invalid is
  | .invalid is, .invalid js => .invalid (is ++ js)

instance : Applicative Validated where
  pure := .ok
  seq f x := apply f (x ())

def within {α : Type} (s : Segment) : Validated α → Validated α
  | .ok x => .ok x
  | .invalid is => .invalid (is.map fun i => ⟨i.rule, s :: i.path⟩)

/-- Checks items one by one, counting from `index`. -/
def items {α β : Type} (check : α → Validated β) (index : Nat) : List α → Validated (List β)
  | [] => .ok []
  | x :: xs => apply (apply (.ok List.cons) ((check x).within (.item index))) (items check (index + 1) xs)

/-- The issues as the error of an `Except`. -/
def toExcept {α : Type} : Validated α → Except (List Issue) α
  | .ok x => .ok x
  | .invalid is => .error is

end Validated

end ActionGraph
