import ActionGraph.CommandLine.Arguments
import ActionGraph.CommandLine.Files
import ActionGraph.Graph.Document
import ActionGraph.Graph.Connection
import ActionGraph.Rehearsal
import ActionGraph.Demonstration
import ActionGraph.Value.Document

/-!
The commands: writing the demonstration graph, listing a graph, checking its wiring, and running it
without a screen. A command is a function from the files it sees to what it prints, the files
afterwards and an exit code.
-/

namespace ActionGraph.CommandLine

def programName : String := "cardforge"

def version : String := "0.1.0"

structure Place where
  files : Files
  clock : Clock
  patience : Nat

structure Outcome where
  code : Nat
  output : List String
  errors : List String
  files : Files

inductive Ending where
  | exits (o : Outcome)
  | helps
  | breaks (f : Fault)

namespace Place

def exit (p : Place) (code : Nat) (output errors : List String) : Ending := .exits ⟨code, output, errors, p.files⟩

def withGraph (p : Place) (file : String) (go : Graph → Ending) : Ending :=
  match p.files.read? file with
  | .error f => .breaks f
  | .ok none => p.exit 1 [] ["Error: Graph file not found: " ++ normalPath file]
  | .ok (some text) =>
    match Graph.parse text with
    | .ok g => go g
    | .invalid issues => p.exit 1 [] ["Error parsing file: " ++ Fault.issueCount "Graph" issues]

def demo (p : Place) (output : Option String) : Ending :=
  let text := (Demonstration.graph (some Demonstration.graphId)).render Graph.indent
  match output with
  | none | some "" => p.exit 0 [text] []
  | some file =>
    match p.files.write file (text ++ "\n") with
    | .error f => .breaks f
    | .ok files => .exits ⟨0, ["Wrote " ++ file], [], files⟩

end Place

def firstNonempty (texts : List (Option String)) (otherwise : String) : String :=
  (texts.findSome? fun t => t.filter (· != "")).getD otherwise

def listing (file : String) (g : Graph) : List String :=
  ["Graph: " ++ firstNonempty [g.name, g.graphId] file, "", s!"Nodes: {g.nodes.length}"]
    ++ g.nodes.map (fun n => "  • " ++ n.id ++ " (" ++ n.type ++ ")")
    ++ ["", s!"Edges: {g.edges.length}"]
    ++ g.edges.map fun e => "  • [" ++ e.kind.name ++ "] " ++ e.source.text ++ " → " ++ e.target.text

def unknownTypes (r : Repertoire) (g : Graph) : List String :=
  (((g.nodes.map (·.type)).filter fun t => !r.has t).mergeSort fun a b => decide (a ≤ b)).eraseDups

def report (r : Repertoire) (g : Graph) : List String :=
  let unknown := unknownTypes r g
  g.problems.map (fun p => "✗ " ++ p.message)
    ++ unknown.map (fun t => "! No behavior for node type: " ++ t)
    ++ (if unknown.isEmpty then [] else ["  Available types: " ++ ", ".intercalate r.types])
    ++ (if g.problems.isEmpty then [s!"✓ {g.edges.length} edge(s) OK"] else [])

def rule : String := String.ofList (List.replicate 70 '─')

def entryLine (entry : String × Value) : Except Fault String := entry.2.trailer.map (entry.1 ++ ·)

def transcript (file : String) (fires : List String) (log : List (String × Value)) : Except Fault (List String) := do
  let entries ← log.mapM entryLine
  return ["▶ Running: " ++ file, "  Firing: " ++ ", ".intercalate fires, "", rule] ++ entries ++ [rule]

namespace Place

def rehearse (p : Place) (file : String) (plan : Rehearsal.Plan) (g : Graph) : Ending :=
  match Rehearsal.run g plan with
  | (_, .error f) => .breaks f
  | (s, .ok _) =>
    let (trace, _) := s.takeTrace
    match transcript file plan.cues (Rehearsal.logged trace) with
    | .error f => .breaks f
    | .ok lines => p.exit 0 lines (Rehearsal.diagnostics trace)

/-- Runs a graph if it is told what to fire. A selector or a pointer that was given as nothing
breaks the run; a factor of time that was given as nothing breaks the animations only. -/
def run (p : Place) (file : String) (fires : List (Option String)) (pointer : Option (Float × Float))
    (timeScale : Option Float) (g : Graph) : Ending :=
  if fires.isEmpty then p.exit 1 [] ["Error: nothing to fire (use --fire SELECTOR)"]
  else
    match fires.findIdx? Option.isNone, pointer with
    | some i, _ => .breaks (.notText i)
    | none, none => .breaks (.outOfRange "list")
    | none, some (x, y) =>
      let factor := timeScale.elim (.list []) Value.float
      p.rehearse file ⟨fires.filterMap id, x, y, factor, p.clock, p.patience⟩ g

def perform (p : Place) : Command → Ending
  | .demo output => p.demo output
  | .list file => p.withGraph file fun g => p.exit 0 (listing file g) []
  | .check file => p.withGraph file fun g =>
    p.exit (if g.problems.isEmpty then 0 else 1) (report Builtin.standard g) []
  | .run file fires pointer timeScale => p.withGraph file (p.run file fires pointer timeScale)

def call (p : Place) (args : List String) : Ending :=
  match read args with
  | .ok command => p.perform command
  | .error .help => .helps
  | .error .version => p.exit 0 [programName ++ " " ++ version] []
  | .error (.misuse command message) =>
    let caller := match command with
      | none => programName
      | some name => programName ++ " " ++ name
    p.exit 2 [] [caller ++ ": error: " ++ message]

end Place

def textOf (lines : List String) : String := String.join (lines.map (· ++ "\n"))

def usage : List String := [
  "usage: " ++ programName ++ " [-h] [--version] \x7bdemo,list,check,run\x7d ...",
  "",
  "  demo [--output FILE]          print the demonstration graph, or write it to a file",
  "  list FILE                     list the nodes and edges of a graph",
  "  check FILE                    check the wiring of a graph",
  "  run FILE --fire SELECTOR ...  run a graph [--at X,Y] [--time-scale F]"]

end ActionGraph.CommandLine
