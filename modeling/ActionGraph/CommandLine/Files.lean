import ActionGraph.Fault
import ActionGraph.Keyed

/-!
The files that a command sees, and what a path leads to among them. A path is brought to a normal
form first: without empty parts and without parts that stand for the same directory. It is then
followed part by part, so that a way up counts only where there is something to go up from.
-/

namespace ActionGraph.CommandLine

/-- Texts by the paths of their files, and further directories that are there. The directory we
are in and those above it need not be named, nor those that a file is in. -/
structure Files where
  texts : List (String × String)
  directories : List String

def pathParts (path : String) : List String := (path.splitOn "/").filter fun part => part != "" && part != "."

/-- What a path begins with if it does not begin here. Two slashes are kept, more count as one. -/
def pathRoot (path : String) : String :=
  match path.toList with
  | '/' :: '/' :: '/' :: _ => "/"
  | '/' :: '/' :: _ => "//"
  | '/' :: _ => "/"
  | _ => ""

def normalPath (path : String) : String :=
  let normal := pathRoot path ++ "/".intercalate (pathParts path)
  if normal = "" then "." else normal

def longestPart : Nat := 255

def longestPath : Nat := 4095

/-- A place among the files: from a root or from here, some directories up and then down by name. -/
structure Spot where
  root : String
  up : Nat
  names : List String
  deriving DecidableEq, Repr

namespace Spot

def path (s : Spot) : String := s.root ++ "/".intercalate (List.replicate s.up ".." ++ s.names)

/-- The place that a part of a path leads to. There is nothing above a root. -/
def step (s : Spot) (part : String) : Spot :=
  if part != ".." then { s with names := s.names ++ [part] }
  else if !s.names.isEmpty then { s with names := s.names.dropLast }
  else if s.root = "" then { s with up := s.up + 1 }
  else s

end Spot

inductive Found where
  | file (path text : String)
  | directory
  | vacancy (path : String)
  | nothing
  | blocked
  | tooLong
  deriving DecidableEq, Repr

namespace Files

def isDirectory (fs : Files) (path : String) : Bool :=
  fs.directories.contains path || fs.texts.any fun f => (path ++ "/").toList.isPrefixOf f.1.toList

def find (fs : Files) (s : Spot) : Found :=
  if s.names.isEmpty then .directory
  else
    match Keyed.get? s.path fs.texts with
    | some text => .file s.path text
    | none => if fs.isDirectory s.path then .directory else .vacancy s.path

def walk (fs : Files) (s : Spot) : List String → Found
  | [] => fs.find s
  | part :: parts =>
    match fs.find s with
    | .directory => if longestPart < part.utf8ByteSize then .tooLong else fs.walk (s.step part) parts
    | .file .. => .blocked
    | .vacancy _ => .nothing
    | other => other

/-- What a normal path leads to. A file that is known by this very path is found at once. -/
def look (fs : Files) (path : String) : Found :=
  match Keyed.get? path fs.texts with
  | some text => .file path text
  | none =>
    if longestPath < path.utf8ByteSize then .tooLong
    else fs.walk ⟨pathRoot path, 0, []⟩ (pathParts path)

/-- Reads a file. There may be none. -/
def read? (fs : Files) (path : String) : Except Fault (Option String) :=
  let path := normalPath path
  if path.contains '\x00' then .ok none
  else
    match fs.look path with
    | .file _ text => .ok (some text)
    | .directory => .error (.directory path)
    | .tooLong => .error (.pathTooLong path)
    | .vacancy _ | .nothing | .blocked => .ok none

def write (fs : Files) (path text : String) : Except Fault Files :=
  let path := normalPath path
  if path.contains '\x00' then .error .nullInPath
  else
    match fs.look path with
    | .file place _ | .vacancy place => .ok { fs with texts := Keyed.put place text fs.texts }
    | .directory => .error (.directory path)
    | .nothing => .error (.noSuchPath path)
    | .blocked => .error (.notDirectory path)
    | .tooLong => .error (.pathTooLong path)

end Files

end ActionGraph.CommandLine
