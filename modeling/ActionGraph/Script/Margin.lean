/-!
The common margin of a text: the blanks that every line with content starts with. Lines without
content do not count, and lose their blanks.
-/

namespace ActionGraph.Script

def isMargin (c : Char) : Bool := c == ' ' || c == '\t'

def marginOf (line : List Char) : List Char := line.takeWhile isMargin

def common : List Char → List Char → List Char
  | a :: as, b :: bs => if a = b then a :: common as bs else []
  | _, _ => []

def blanked (line : List Char) : List Char := if line.all isMargin then [] else line

/-- The lines of a text. There is always at least one. -/
def lines : List Char → List (List Char)
  | [] => [[]]
  | '\n' :: cs => [] :: lines cs
  | c :: cs =>
    match lines cs with
    | [] => [[c]]
    | l :: ls => (c :: l) :: ls

def commonMargin (ls : List (List Char)) : List Char :=
  match (ls.filter fun l => !l.isEmpty).map marginOf with
  | [] => []
  | m :: ms => ms.foldl common m

def dedent (text : String) : String :=
  let ls := (lines text.toList).map blanked
  let margin := (commonMargin ls).length
  String.ofList (List.intercalate ['\n'] (ls.map (·.drop margin)))

end ActionGraph.Script
