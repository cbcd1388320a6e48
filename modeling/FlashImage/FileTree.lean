import FlashImage.Files

/-!
# Files in directories

The tool reads and writes files by path. A `FileSystem` says how; this file holds the interface and one
file system that is a plain value, a tree of directories below the one that paths start from.

A path is a row of parts between slashes. Empty parts and single dots stay where they are, and two dots
go back; every part but the last has to be a directory. Names and paths have a largest size: a path that
is too long leads nowhere, however short the row of names that it stands for. Of what lies outside of
the starting directory only the way up is known, and what has been put there.

## Parts

* `FileSystem` — reading, writing and making directories;
* `FileTree` — directories and files as a value;
* `FileTree.read?`, `FileTree.write?` and `FileTree.makeDirectories`.
-/

namespace FlashImage

/-- **A file system**, used from a monad. -/
class FileSystem (m : Type → Type) where
  /-- The contents of a file, if it can be read. -/
  readFile : String → m (Option Bytes)
  /-- Write a file; whether that was possible. -/
  writeFile : String → Bytes → m Bool
  /-- Make a directory and those above it, unless they are there; whether it is there now. -/
  makeDirectories : String → m Bool

/-- A name inside a directory, as a path. A name that starts with a slash is a path of its own. -/
def joinPath (directory name : String) : String :=
  if name.startsWith "/" || directory.isEmpty then name
  else if directory.endsWith "/" then directory ++ name
  else directory ++ "/" ++ name

/-- **A tree of directories**: the directories and the files in it, by the row of names that leads to
them. The starting directory is the empty row. A row of two dots leads to those above it, and a slash in
front of a row to the topmost one. -/
structure FileTree where
  directories : List (List String)
  files : List (List String × Bytes)

namespace FileTree

/-- The place of the topmost directory. -/
def top : List String := ["/"]

/-- Whether a place is the starting directory or one above it. -/
def isAbove (place : List String) : Bool := place = top || place.all (· = "..")

/-- Whether there is a directory at a place. -/
def isDirectory (t : FileTree) (place : List String) : Bool :=
  isAbove place || t.directories.contains place

/-- Whether there is a file at a place. -/
def isFile (t : FileTree) (place : List String) : Bool := (t.files.lookup place).isSome

/-- The parts of a path. -/
def parts (path : String) : List String := path.splitOn "/"

/-- The largest number of bytes of a path. -/
def maxPathSize : Nat := 4095

/-- Whether a path is short enough to be followed, wherever it leads. -/
def isShort (path : String) : Bool := path.utf8ByteSize ≤ maxPathSize

/-- The directory that a path starts from. -/
def start (path : String) : List String := if path.startsWith "/" then top else []

/-- Whether a part of a path stays where it is. -/
def stays (part : String) : Bool := part.isEmpty || part = "."

/-- The largest number of bytes of a name. -/
def maxNameSize : Nat := 255

/-- Whether a part of a path can be the name of something new. -/
def isName (part : String) : Bool :=
  !stays part && part ≠ ".." && part.utf8ByteSize ≤ maxNameSize

/-- The directory above a place. There is none above the topmost one. -/
def parent (place : List String) : List String :=
  if place = top then top else if isAbove place then place ++ [".."] else place.dropLast

/-- Where one part of a path leads from a directory. -/
def step? (t : FileTree) (place : List String) (part : String) : Option (List String) :=
  if stays part then some place
  else if part = ".." then some (parent place)
  else if t.isDirectory (place ++ [part]) then some (place ++ [part])
  else none

/-- **The place of a file** that a path leads to, whether there is one or not: in a directory, and under
a name. -/
def locate? (t : FileTree) (path : String) : Option (List String) :=
  match (parts path).reverse with
  | [] => none
  | name :: above =>
    if isShort path && isName name then
      (above.reverse.foldlM t.step? (start path)).map (· ++ [name])
    else none

/-- **Read a file.** -/
def read? (t : FileTree) (path : String) : Option Bytes := do
  t.files.lookup (← t.locate? path)

/-- A tree with a file put at a place. -/
def put (t : FileTree) (place : List String) (contents : Bytes) : FileTree :=
  if t.isFile place then
    { t with files := t.files.map fun (p, c) => (p, if p = place then contents else c) }
  else { t with files := t.files ++ [(place, contents)] }

/-- **Write a file**, unless there is a directory at its place. -/
def write? (t : FileTree) (path : String) (contents : Bytes) : Option FileTree := do
  let place ← t.locate? path
  if t.isDirectory place then none else some (t.put place contents)

/-- **Go on by one part of a path**, making a directory where there is nothing. Where a file is in the
way, or there cannot be a directory, the path ends; what has been made so far stays. -/
def enter (s : FileTree × Option (List String)) (part : String) :
    FileTree × Option (List String) :=
  match s with
  | (t, none) => (t, none)
  | (t, some place) =>
    match t.step? place part with
    | some next => (t, some next)
    | none =>
      let next := place ++ [part]
      if isName part && !t.isFile next then
        ({ t with directories := t.directories ++ [next] }, some next)
      else (t, none)

/-- **Make a directory** and those above it, and whether it is there then. -/
def makeDirectories (t : FileTree) (path : String) : FileTree × Bool :=
  if isShort path then
    let (made, place) := (parts path).foldl enter (t, some (start path))
    (made, place.isSome)
  else (t, false)

/-- The path of a place. -/
def pathOf (place : List String) : String := "/".intercalate place

/-- **The tree with the given files**, and the directories that they need. -/
def ofFiles (files : Files) : FileTree :=
  files.foldl (fun t (path, contents) =>
    let place := (parts path).filter fun part => !stays part
    -- every row of names on the way to the file, the starting directory first
    let above := (List.range place.length).map place.take
    { directories := t.directories ++ above.filter fun d => !t.isDirectory d
      files := t.files ++ [(place, contents)] }) ⟨[], []⟩

/-- Whether a place is outside of the starting directory. -/
def isOutside (place : List String) : Bool := place.head? = some ".." || place.head? = some "/"

/-- The files in and below the starting directory, by path. -/
def toFiles (t : FileTree) : Files :=
  (t.files.filter fun (place, _) => !isOutside place).map fun (place, contents) =>
    (pathOf place, contents)

/-- **A tree as a file system.** -/
instance : FileSystem (StateM FileTree) where
  readFile path := do
    return (← get).read? path
  writeFile path contents := do
    match (← get).write? path contents with
    | some t => set t; return true
    | none => return false
  makeDirectories path := do
    let (t, there) := (← get).makeDirectories path
    set t
    return there

end FileTree

end FlashImage
