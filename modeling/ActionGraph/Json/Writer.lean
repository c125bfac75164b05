import ActionGraph.Json.Basic
import ActionGraph.Decimal.Layout
import ActionGraph.Text.Quoted

/-!
Writing JSON. Without an indent the text is compact; with one, each item stands on its own line.
Empty lists and objects stay on one line. Floats that are not finite have no JSON form and are
written as null.
-/

namespace ActionGraph.Json

/-- One character of a string. Only the quote, the backslash and controls are escaped. -/
def escapeChar (c : Char) : List Char :=
  if c = '"' then ['\\', '"']
  else if c = '\\' then ['\\', '\\']
  else if c = '\n' then ['\\', 'n']
  else if c = '\r' then ['\\', 'r']
  else if c = '\t' then ['\\', 't']
  else if c = '\x08' then ['\\', 'b']
  else if c = '\x0c' then ['\\', 'f']
  else if c.toNat < 0x20 then '\\' :: 'u' :: Text.hex 4 c.toNat
  else [c]

def renderText (s : String) : List Char :=
  '"' :: s.toList.flatMap escapeChar ++ ['"']

def renderInt (n : Int) : List Char :=
  if n < 0 then '-' :: Nat.toDigits 10 n.natAbs else Nat.toDigits 10 n.natAbs

def renderFloat (x : Float) : List Char :=
  match Binary64.reading x with
  | .finite .. => (Decimal.documentLayout.render x).toList
  | _ => "null".toList

/-- The line break before an item at a depth; nothing in compact text. -/
def lineBreak (indent : Option Nat) (depth : Nat) : List Char :=
  match indent with
  | none => []
  | some width => '\n' :: List.replicate (width * depth) ' '

def colon (indent : Option Nat) : List Char :=
  match indent with
  | none => [':']
  | some _ => [':', ' ']

mutual

def renderAt (indent : Option Nat) (depth : Nat) : Json → List Char
  | .null => "null".toList
  | .bool true => "true".toList
  | .bool false => "false".toList
  | .int n => renderInt n
  | .float x => renderFloat x
  | .str s => renderText s
  | .arr [] => ['[', ']']
  | .arr (item :: items) =>
    '[' :: lineBreak indent (depth + 1) ++ renderAt indent (depth + 1) item
      ++ renderItems indent (depth + 1) items ++ lineBreak indent depth ++ [']']
  | .obj [] => ['\x7b', '\x7d']
  | .obj ((name, value) :: members) =>
    '\x7b' :: lineBreak indent (depth + 1) ++ renderText name ++ colon indent
      ++ renderAt indent (depth + 1) value
      ++ renderMembers indent (depth + 1) members ++ lineBreak indent depth ++ ['\x7d']

def renderItems (indent : Option Nat) (depth : Nat) : List Json → List Char
  | [] => []
  | item :: items =>
    ',' :: lineBreak indent depth ++ renderAt indent depth item ++ renderItems indent depth items

def renderMembers (indent : Option Nat) (depth : Nat) : List (String × Json) → List Char
  | [] => []
  | (name, value) :: members =>
    ',' :: lineBreak indent depth ++ renderText name ++ colon indent
      ++ renderAt indent depth value ++ renderMembers indent depth members

end

def render (indent : Option Nat) (j : Json) : String := String.ofList (renderAt indent 0 j)

def compact (j : Json) : String := j.render none

end ActionGraph.Json
