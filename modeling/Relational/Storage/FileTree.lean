import Relational.Storage.FileStore

/-!
# File trees

Files and directories in memory. A location is the list of names on the way to a file from the working
directory; the names `/` and `..` at its front lead out of there. The working directory and the
directories above it are always there.
-/
namespace Relational

abbrev Location := List String

namespace Location

def parent (l : Location) : Location :=
  match l.getLast? with
  | none | some ".." => l ++ [".."]
  | some "/" => l
  | some _ => l.dropLast

/-- The location of a name as seen from a directory. -/
def child (l : Location) (name : String) : Location :=
  if name = "" ∨ name = "." then l
  else if name = ".." then l.parent
  else l ++ [name]

/-- Whether the location is the working directory or above it. -/
def isOutermost (l : Location) : Bool := l.all fun name => name == ".." || name == "/"

end Location

inductive FileTree.Entry where
  | file (content : Bytes)
  | directory
deriving DecidableEq

structure FileTree where
  entry? : Location → Option FileTree.Entry

namespace FileTree

def empty : FileTree := ⟨fun _ => none⟩

def find? (t : FileTree) (l : Location) : Option Entry :=
  if l.isOutermost then some .directory else t.entry? l

def set (t : FileTree) (l : Location) (e : Entry) : FileTree :=
  ⟨fun k => if k = l then some e else t.entry? k⟩

theorem find?_set (t : FileTree) {l : Location} (e : Entry) (k : Location)
    (h : l.isOutermost = false) : (t.set l e).find? k = if k = l then some e else t.find? k := by
  unfold find? set
  by_cases hk : k = l
  · subst hk
    simp [h]
  · simp [hk]

/-- Where a path starts, and the names in it. -/
def components (path : String) : Location × List String :=
  let names := (path.toList.splitOn '/').map String.ofList
  if path.toList.head? = some '/' then (["/"], names) else ([], names)

/-- Follows names from a location. Every location that is left has to be a directory. -/
def follow (t : FileTree) (l : Location) : List String → Except FileFault Location
  | [] => .ok l
  | name :: rest =>
    match t.find? l with
    | none => .error .noSuchFile
    | some (.file _) => .error .notADirectory
    | some .directory => t.follow (l.child name) rest

def read (t : FileTree) (path : String) : Except FileFault Bytes := do
  let (start, names) := components path
  let l ← t.follow start names
  match t.find? l with
  | none => throw .noSuchFile
  | some .directory => throw .isADirectory
  | some (.file content) => return content

/-- Writes a file, in a directory that is there. A path with a slash at its end names no file. -/
def write (t : FileTree) (path : String) (content : Bytes) : Except FileFault FileTree := do
  let (start, names) := components path
  let named := (names.reverse.dropWhile (· == "")).reverse
  let l ← t.follow start named
  if named.length < names.length then throw .isADirectory
  match t.find? l with
  | some .directory => throw .isADirectory
  | _ => return t.set l (.file content)

def store : FileStore FileTree := ⟨read, write⟩

/-- The tree with directories along the names, where nothing is in the way. -/
def addDirectories (t : FileTree) (l : Location) : List String → FileTree
  | [] => t
  | name :: rest =>
    let next := l.child name
    if (t.find? next).isSome then t.addDirectories next rest
    else (t.set next .directory).addDirectories next rest

def makeDirectory (t : FileTree) (path : String) : FileTree :=
  let (start, names) := components path
  t.addDirectories start names

/-- Writes a file, and makes the directories that it is in. -/
def place (t : FileTree) (path : String) (content : Bytes) : Except FileFault FileTree :=
  let (start, names) := components path
  (t.addDirectories start names.dropLast).write path content

end FileTree
end Relational
