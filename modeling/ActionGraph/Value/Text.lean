import ActionGraph.Value.Basic
import ActionGraph.Decimal.Layout
import ActionGraph.Text.Quoted

/-!
The text of a value. By itself, a text stands as it is and a snapshot is a list of fields; everything
else, and every value inside another, has its quoted form. An integer may have too many digits to be
spelled, and so may whatever contains it.
-/

namespace ActionGraph

def ElementRef.text (e : ElementRef) : String :=
  s!"Element({e.id}, kind={e.kind})"

def Snapshot.fieldTexts (s : Snapshot) : List String :=
  let number := Decimal.valueLayout.render
  ["event_class=" ++ Text.quoted s.eventClass, "x=" ++ number s.x, "y=" ++ number s.y,
    "timestamp=" ++ number s.timestamp]

def Snapshot.text (s : Snapshot) : String := "EventSnapshot(" ++ ", ".intercalate s.fieldTexts ++ ")"

namespace Value

def octetText (quote : Char) (b : UInt8) : List Char :=
  let c := Char.ofNat b.toNat
  if c = quote ∨ c = '\\' then ['\\', c]
  else if c = '\n' then ['\\', 'n']
  else if c = '\r' then ['\\', 'r']
  else if c = '\t' then ['\\', 't']
  else if b.toNat < 0x20 ∨ 0x7F ≤ b.toNat then '\\' :: 'x' :: Text.hex 2 b.toNat
  else [c]

def octetsText (bs : List UInt8) : String :=
  let q := Text.quoteOf (bs.map fun b => Char.ofNat b.toNat)
  String.ofList ('b' :: q :: bs.flatMap (octetText q) ++ [q])

def joined (items : List String) : String := ", ".intercalate items

mutual

def quoted : Value → String
  | .null => "None"
  | .bool true => "True"
  | .bool false => "False"
  | .int n => toString n
  | .float x => Decimal.valueLayout.render x
  | .text s => Text.quoted s
  | .list items => "[" ++ joined (quotedItems items) ++ "]"
  | .tuple [item] => "(" ++ quoted item ++ ",)"
  | .tuple items => "(" ++ joined (quotedItems items) ++ ")"
  | .set [] => "set()"
  | .set items => "\x7b" ++ joined (quotedItems items) ++ "\x7d"
  | .dict entries => "\x7b" ++ joined (quotedEntries entries) ++ "\x7d"
  | .bytes octets => octetsText octets
  | .object attributes => "namespace(" ++ joined (quotedAttributes attributes) ++ ")"
  | .element e => e.text
  | .event s => s.text
  | .absent => "ABSENT"
  | .enclosing => "\x7b...\x7d"

def quotedItems : List Value → List String
  | [] => []
  | item :: items => quoted item :: quotedItems items

def quotedEntries : List (Value × Value) → List String
  | [] => []
  | (key, value) :: entries => (quoted key ++ ": " ++ quoted value) :: quotedEntries entries

def quotedAttributes : List (String × Value) → List String
  | [] => []
  | (name, value) :: attributes =>
    if name = "" then quotedAttributes attributes
    else (name ++ "=" ++ quoted value) :: quotedAttributes attributes

end

def longestSpelling : Nat := 4300

mutual

def spellable : Value → Bool
  | .int n => decide (n.natAbs < 10 ^ longestSpelling)
  | .list items => spellableItems items
  | .tuple items => spellableItems items
  | .set items => spellableItems items
  | .dict entries => spellableEntries entries
  | .object attributes => spellableAttributes attributes
  | _ => true

def spellableItems : List Value → Bool
  | [] => true
  | item :: items => spellable item && spellableItems items

def spellableEntries : List (Value × Value) → Bool
  | [] => true
  | (key, value) :: entries => spellable key && spellable value && spellableEntries entries

/-- Attributes one by one. One with an empty name is not shown. -/
def spellableAttributes : List (String × Value) → Bool
  | [] => true
  | (name, value) :: attributes => (name = "" || spellable value) && spellableAttributes attributes

end

def display : Value → String
  | .text s => s
  | .event s => " ".intercalate s.fieldTexts
  | v => v.quoted

end Value

end ActionGraph
