import ActionGraph.CommandLine.Run

/-!
The command line program. It looks at the files and directories that the arguments name, leaves
all decisions to `CommandLine`, and prints and writes what comes of it.
-/

namespace ActionGraph.CommandLine

def directoriesOf (path : String) : List String :=
  let parts := pathParts path
  (List.range parts.length).map fun n => normalPath (pathRoot path ++ "/".intercalate (parts.take (n + 1)))

def pathsIn (args : List String) : List String := args ++ args.filterMap fun a => (splitEquals a).2

def readFiles (args : List String) : IO Files := do
  let mut texts := []
  let mut directories := []
  for a in pathsIn args do
    try
      let text ← IO.FS.readFile a
      texts := Keyed.put (normalPath a) text texts
    catch _ => pure ()
    for d in directoriesOf a do
      try
        -- only a directory has an entry for itself
        let _ ← IO.FS.realPath (d ++ "/.")
        directories := d :: directories
      catch _ => pure ()
  return ⟨texts, directories⟩

def writeFiles (before after : Files) : IO Unit :=
  after.texts.forM fun f => do
    if Keyed.get? f.1 before.texts != some f.2 then IO.FS.writeFile f.1 f.2

def conclude (before : Files) : Ending → IO UInt32
  | .helps => do
    IO.print (textOf usage)
    return 0
  | .breaks f => do
    IO.eprintln f.line
    return 1
  | .exits o => do
    writeFiles before o.files
    IO.eprint (textOf o.errors)
    IO.print (textOf o.output)
    return UInt32.ofNat o.code

end ActionGraph.CommandLine

open ActionGraph CommandLine in
/-- Does what the arguments ask for. The clock shows when the program was called. -/
def main (args : List String) : IO UInt32 := do
  let files ← readFiles args
  let now ← IO.monoMsNow
  let place : Place := ⟨files, .steady (.float (now.toFloat / 1000)), 1000000000⟩
  conclude files (place.call args)
