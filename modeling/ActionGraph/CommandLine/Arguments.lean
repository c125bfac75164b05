import ActionGraph.Decimal.Numeral
import ActionGraph.Text.Quoted
import ActionGraph.Fault

/-!
The arguments of the command line. Options may be shortened as long as they stay unambiguous, may
carry their value after an equals sign, and may stand before or after the file; `--` ends them.
Arguments take effect from left to right, so of two mistakes the first is reported; what is left
over at the end is a mistake too.
-/

namespace ActionGraph.CommandLine

inductive Opt where
  | help
  | version
  | output
  | fire
  | at
  | timeScale
  deriving DecidableEq, Repr

namespace Opt

def names : Opt → List String
  | .help => ["-h", "--help"]
  | .version => ["--version"]
  | .output => ["--output"]
  | .fire => ["--fire"]
  | .at => ["--at"]
  | .timeScale => ["--time-scale"]

def takesValue : Opt → Bool
  | .help => false
  | .version => false
  | _ => true

def title (o : Opt) : String := "argument " ++ "/".intercalate o.names

end Opt

inductive Mark where
  | plain
  | separator
  | option (o : Opt) (name : String) (attached : Option String)
  | stranger
  deriving DecidableEq, Repr

def splitEquals (s : String) : String × Option String :=
  let cs := s.toList
  let before := cs.takeWhile (· != '=')
  match cs.dropWhile (· != '=') with
  | [] => (s, none)
  | _ :: after => (String.ofList before, some (String.ofList after))

def begins (start s : String) : Bool := start.toList.isPrefixOf s.toList

/-- A negative number in plain positional notation, which is a value and no option. A line break
may follow it. -/
def isNegativeNumber (s : String) : Bool :=
  let isDigit (c : Char) : Bool := (Text.digit? c).isSome
  let cs := s.toList
  let cs := if cs.getLast? = some '\n' then cs.dropLast else cs
  match cs with
  | '-' :: cs =>
    match cs.dropWhile isDigit with
    | [] => !cs.isEmpty
    | '.' :: places => !places.isEmpty && places.all isDigit
    | _ => false
  | _ => false

def spellings (known : List Opt) : List (String × Opt) :=
  known.flatMap fun o => o.names.map fun n => (n, o)

/-- The options that an argument may be short for. A single dash can only be followed by the one
letter of an option and, attached to it, more text. -/
def completions (known : List Opt) (s : String) : List (Opt × String × Option String) :=
  if begins "--" s then
    let (start, value) := splitEquals s
    (spellings known).filterMap fun n =>
      if begins start n.1 then some (n.2, n.1, value) else none
  else
    (spellings known).filterMap fun n =>
      if n.1.toList = s.toList.take 2 then some (n.2, n.1, some (String.ofList (s.toList.drop 2)))
      else if begins s n.1 then some (n.2, n.1, none)
      else none

inductive Stop where
  | help
  | version
  | misuse (command : Option String) (message : String)
  deriving DecidableEq, Repr

/-- An argument that is no known option in full: a shortened one, a value, or a stranger. -/
def markShort (command : Option String) (known : List Opt) (s : String) : Except Stop Mark :=
  match completions known s with
  | [(o, name, attached)] => .ok (.option o name attached)
  | [] => .ok (if isNegativeNumber s || s.toList.contains ' ' then .plain else .stranger)
  | several =>
    .error (.misuse command
      ("ambiguous option: " ++ s ++ " could match " ++ ", ".intercalate (several.map fun c => c.2.1)))

def mark (command : Option String) (known : List Opt) (s : String) : Except Stop Mark :=
  if !begins "-" s || s == "-" then .ok .plain
  else
    match Keyed.get? s (spellings known), splitEquals s with
    | some o, _ => .ok (.option o s none)
    | none, (name, some value) =>
      match Keyed.get? name (spellings known) with
      | some o => .ok (.option o name (some value))
      | none => markShort command known s
    | none, (_, none) => markShort command known s

/-- What the arguments are. After the first separator there are no options. -/
def marks (command : Option String) (known : List Opt) : List String → Except Stop (List (String × Mark))
  | [] => .ok []
  | s :: rest =>
    if s = "--" then .ok ((s, .separator) :: rest.map fun r => (r, .plain))
    else do
      let m ← mark command known s
      return (s, m) :: (← marks command known rest)

def misused (command : Option String) (o : Opt) (message : String) : Stop :=
  .misuse command (o.title ++ ": " ++ message)

def ignored (command : Option String) (o : Opt) (value : List Char) : Stop :=
  misused command o ("ignored explicit argument " ++ Text.quoted (String.ofList value))

/-- Letters attached to the one-letter option for help: more of the same, and else a mistake. -/
def lettersAfterHelp (command : Option String) : List Char → Stop
  | ['h'] => .help
  | 'h' :: cs => lettersAfterHelp command cs
  | cs => ignored command .help cs

def flag (command : Option String) (o : Opt) (name : String) : Option String → Stop
  | some a =>
    if begins "--" name then ignored command o a.toList else lettersAfterHelp command a.toList
  | none =>
    match o with
    | .version => .version
    | _ => .help

def splitCommas : List Char → List (List Char)
  | [] => [[]]
  | ',' :: cs => [] :: splitCommas cs
  | c :: cs =>
    match splitCommas cs with
    | [] => [[c]]
    | part :: parts => (c :: part) :: parts

def position (s : String) : Except Fault (Float × Float) :=
  let refused : Except Fault (Float × Float) := .error (.unusableArgument ("Expected X,Y but got: " ++ s))
  match splitCommas s.toList with
  | [x, y] =>
    match Decimal.ofText? (String.ofList x), Decimal.ofText? (String.ofList y) with
    | some x, some y => .ok (x, y)
    | _, _ => refused
  | _ => refused

/-- What was given to a command. An option may have been given nothing at all as its value. -/
structure Given where
  file : Option String := none
  output : Option String := none
  fires : List (Option String) := []
  pointer : Option (Float × Float) := some (0, 0)
  timeScale : Option Float := some 1
  extras : List String := []

def Given.set (g : Given) (command : Option String) (o : Opt) (value : String) : Except Stop Given :=
  match o with
  | .output => .ok { g with output := some value }
  | .fire => .ok { g with fires := g.fires ++ [some value] }
  | .at =>
    match position value with
    | .ok p => .ok { g with pointer := some p }
    | .error f => .error (misused command o f.message)
  | .timeScale =>
    match Decimal.ofText? value with
    | some x => .ok { g with timeScale := some x }
    | none => .error (misused command o ("invalid float value: " ++ Text.quoted value))
  | _ => .ok g

def Given.clear (g : Given) (o : Opt) : Given :=
  match o with
  | .output => { g with output := none }
  | .fire => { g with fires := g.fires ++ [none] }
  | .at => { g with pointer := none }
  | .timeScale => { g with timeScale := none }
  | _ => g

def Given.wants (g : Given) (takesFile : Bool) : Bool := takesFile && g.file.isNone

def Given.leave (g : Given) (s : String) : Given := { g with extras := g.extras ++ [s] }

/-- Takes the arguments of a command one after the other. A separator next to the file belongs to
it, and one attached to an option stands for no value. -/
def collect (command : Option String) (takesFile : Bool) (g : Given) : List (String × Mark) → Except Stop Given
  | [] => .ok g
  | (s, .stranger) :: rest => collect command takesFile (g.leave s) rest
  | (_, .option o name (some a)) :: rest =>
    if !o.takesValue then .error (flag command o name (some a))
    else if a = "--" then collect command takesFile (g.clear o) rest
    else do collect command takesFile (← g.set command o a) rest
  | (_, .option o name none) :: rest =>
    if o.takesValue then
      match rest with
      | (v, .plain) :: rest => do collect command takesFile (← g.set command o v) rest
      | _ => .error (misused command o "expected one argument")
    else .error (flag command o name none)
  | (s, .plain) :: rest =>
    if g.wants takesFile then
      match rest with
      | (_, .separator) :: rest => collect command takesFile { g with file := some s } rest
      | rest => collect command takesFile { g with file := some s } rest
    else collect command takesFile (g.leave s) rest
  | (s, .separator) :: rest =>
    if g.wants takesFile then
      match rest with
      | (v, .plain) :: rest => collect command takesFile { g with file := some v } rest
      | rest => collect command takesFile (g.leave s) rest
    else collect command takesFile (g.leave s) rest

inductive Command where
  | demo (output : Option String)
  | list (file : String)
  | check (file : String)
  | run (file : String) (fires : List (Option String)) (pointer : Option (Float × Float))
      (timeScale : Option Float)

structure CommandSpec where
  name : String
  options : List Opt
  takesFile : Bool
  make : String → Given → Command

def commands : List CommandSpec := [
  ⟨"demo", [.help, .output], false, fun _ g => .demo g.output⟩,
  ⟨"list", [.help], true, fun file _ => .list file⟩,
  ⟨"check", [.help], true, fun file _ => .check file⟩,
  ⟨"run", [.help, .fire, .at, .timeScale], true, fun file g => .run file g.fires g.pointer g.timeScale⟩]

def CommandSpec.read (c : CommandSpec) (args : List String) : Except Stop (Command × List String) := do
  let command := some c.name
  let given ← collect command c.takesFile {} (← marks command c.options args)
  if given.wants c.takesFile then .error (.misuse command "the following arguments are required: file")
  else .ok (c.make (given.file.getD "") given, given.extras)

/-- The command of a name with its arguments. Arguments that were left over before or after it are
a mistake, but one in the command itself is reported first. -/
def select (extras : List String) (name : String) (args : List String) : Except Stop Command :=
  match commands.find? fun c => c.name == name with
  | none =>
    .error (.misuse none ("argument command: invalid choice: " ++ Text.quoted name ++ " (choose from "
      ++ ", ".intercalate (commands.map fun c => Text.quoted c.name) ++ ")"))
  | some c => do
    let (command, more) ← c.read args
    match extras ++ more with
    | [] => .ok command
    | all => .error (.misuse none ("unrecognized arguments: " ++ " ".intercalate all))

/-- Finds the command among marked arguments. Without one the program only helps. -/
def choose (extras : List String) : List (String × Mark) → Except Stop Command
  | [] =>
    match extras with
    | [] => .error .help
    | _ => .error (.misuse none ("unrecognized arguments: " ++ " ".intercalate extras))
  | (s, .stranger) :: rest => choose (extras ++ [s]) rest
  | (_, .option o name attached) :: _ => .error (flag none o name attached)
  | (s, .plain) :: rest => select extras s (rest.map Prod.fst)
  | (s, .separator) :: [] => choose (extras ++ [s]) []
  | (s, .separator) :: rest => select extras s (rest.map Prod.fst)

def read (args : List String) : Except Stop Command := do
  choose [] (← marks none [.help, .version] args)

end ActionGraph.CommandLine
