import Shipboard.FileTree.Path

/-!
# The file tree

The files and directories below the root of all files, with a working directory among them, as far
as a task reads and writes them. Links are not part of a tree.

* `FileTree.resolve` follows a path, from the root or from the working directory;
* `FileTree.readText` reads a file that holds text;
* `FileTree.write` makes a file, or writes it anew.
-/

namespace Shipboard

/-- What a path leads to. -/
inductive FileEntry
  | directory
  | file (data : ByteArray)
  /-- Something that the system bars from being used, for a reason. -/
  | barred (why : FileTree.Fault)

/-- Files and directories, by the names on the way from the root to them. -/
structure FileTree where
  /-- The way from the root to the working directory. -/
  home : List String
  entries : List (List String × FileEntry)

namespace FileTree

/-- What some names lead to. The working directory and those on the way to it are always there. -/
def find? (t : FileTree) (names : List String) : Option FileEntry :=
  if names.isPrefixOf t.home then some .directory else t.entries.lookup names

/-- Put an entry where some names lead to, in place of what is there. -/
def put (t : FileTree) (names : List String) (entry : FileEntry) : FileTree :=
  { t with entries := t.entries.filter (fun e => e.1 ≠ names) ++ [(names, entry)] }

/-- Some names lead to a directory. -/
def checkDirectory (t : FileTree) (names : List String) : Except Fault Unit :=
  match t.find? names with
  | some .directory => .ok ()
  | some (.file _) => .error .notADirectory
  | some (.barred why) => .error why
  | none => .error .notFound

/-- Where a path starts. -/
def start (t : FileTree) (path : Path) : List String :=
  if path.fromRoot then [] else t.home

/-- Go from a directory to one of its entries, or to the directory that it is in. That of the root
is the root itself. -/
def enter (t : FileTree) (place : List String) (name : String) : Except Fault (List String) :=
  if Path.nameLimit < name.utf8ByteSize then .error .nameTooLong
  else if name = "." then .ok place
  else if name = ".." then .ok place.dropLast
  else if (t.find? (place ++ [name])).isSome then .ok (place ++ [name])
  else .error .notFound

/-- Follow names from a place. -/
def follow (t : FileTree) (place : List String) : List String → Except Fault (List String)
  | [] => .ok place
  | name :: names => do
    t.checkDirectory place
    follow t (← t.enter place name) names

/-- The place that a path leads to. -/
def resolve (t : FileTree) (path : Path) : Except Fault (List String) := do
  let place ← t.follow (t.start path) path.names
  if path.toDirectory then t.checkDirectory place
  return place

/-- What the file at a path holds. -/
def read (t : FileTree) (path : String) : Except Fault ByteArray := do
  match t.find? (← t.resolve (← Path.parse path)) with
  | some (.file data) => return data
  | some .directory => throw .isADirectory
  | some (.barred why) => throw why
  | none => throw .notFound

/-- The text of the file at a path. -/
def readText (t : FileTree) (path : String) : Except Fault String := do
  match String.fromUTF8? (← t.read path) with
  | some text => return text
  | none => throw .notText

/-- Some names lead to a file, or to nothing. -/
def checkWritable (t : FileTree) (names : List String) : Except Fault Unit :=
  match t.find? names with
  | some .directory => .error .isADirectory
  | some (.barred why) => .error why
  | some (.file _) | none => .ok ()

/-- The names that lead to the file that is to be written at a path. -/
def slot (t : FileTree) (path : String) : Except Fault (List String) := do
  let path ← Path.parse path
  let place ← t.follow (t.start path) path.names.dropLast
  t.checkDirectory place
  let name ← path.fileName
  t.checkWritable (place ++ [name])
  return place ++ [name]

/-- Write a file, which is made if it is not there. -/
def write (t : FileTree) (path : String) (data : ByteArray) : FileTree × Except Fault Unit :=
  match t.slot path with
  | .error why => (t, .error why)
  | .ok names => (t.put names (.file data), .ok ())

end FileTree

end Shipboard
