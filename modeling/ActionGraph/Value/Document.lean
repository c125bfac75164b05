import ActionGraph.Fault
import ActionGraph.Json.Writer

/-!
Values as one line of printed data. The line is JSON with spaces after commas and colons, and with
names for the floats that JSON has none for; what has no JSON form is shown by its quoted form, as
a text. A dictionary whose keys have no text form, and one that contains itself, make the whole
value be shown by its quoted form instead.
-/

namespace ActionGraph.Value

def keyText? : Value → Option String
  | .text s => some s
  | .int n => some (toString n)
  | .float x => some (Decimal.dataLayout.render x)
  | .bool b => some (if b then "true" else "false")
  | .null => some "null"
  | _ => none

def dataText (s : String) : String := String.ofList (Json.renderText s)

mutual

def data? : Value → Option String
  | .null => some "null"
  | .bool b => some (if b then "true" else "false")
  | .int n => some (toString n)
  | .float x => some (Decimal.dataLayout.render x)
  | .text s => some (dataText s)
  | .list items => (dataItems items).map fun ts => "[" ++ joined ts ++ "]"
  | .tuple items => (dataItems items).map fun ts => "[" ++ joined ts ++ "]"
  | .dict entries => (dataEntries entries).map fun ts => "\x7b" ++ joined ts ++ "\x7d"
  | .enclosing => none
  | .set items => some (dataText (quoted (.set items)))
  | .bytes octets => some (dataText (quoted (.bytes octets)))
  | .object attributes => some (dataText (quoted (.object attributes)))
  | .element e => some (dataText (quoted (.element e)))
  | .event s => some (dataText (quoted (.event s)))
  | .absent => some (dataText (quoted .absent))

def dataItems : List Value → Option (List String)
  | [] => some []
  | item :: items => do
    let t ← data? item
    return t :: (← dataItems items)

def dataEntries : List (Value × Value) → Option (List String)
  | [] => some []
  | (key, value) :: entries => do
    let k ← keyText? key
    let t ← data? value
    return (dataText k ++ ": " ++ t) :: (← dataEntries entries)

end

/-- What is printed after a message: nothing for null, and else a space and the data. Neither form of
the data shows an integer that is too long. -/
def trailer : Value → Except Fault String
  | .null => .ok ""
  | v => if v.spellable then .ok (" " ++ (data? v).getD v.quoted) else .error .integerTooLong

end ActionGraph.Value
