/-
# ProgramModel.Files.Tree -- a file system as a value

A `FileTree` says which files and directories there are and where in it the program
works.  A path is followed part by part: every part but the last has to be a directory
that exists, `.` stays, and `..` goes back.  A path that ends in a slash names a
directory.
-/
import ProgramModel.Files.Basic
import ProgramModel.Files.Path
import ProgramModel.Sorted.Map

namespace ProgramModel

set_option autoImplicit false

/-- A place in a file tree: the names on the way from the root. -/
abbrev Location := List String

/-- What is at a place. -/
inductive FileEntry where
  | file (content : List UInt8)
  | directory
  deriving DecidableEq

/-- A file system. -/
structure FileTree where
  entries : SortedMap Location FileEntry := ∅
  workingDirectory : Location := []

namespace FileTree

/-- What is at a place; the root is a directory. -/
def entry? (tree : FileTree) : Location → Option FileEntry
  | [] => some .directory
  | location => tree.entries.get? location

def put (tree : FileTree) (location : Location) (entry : FileEntry) : FileTree :=
  { tree with entries := tree.entries.insert location entry }

/-- The number of bytes that a name may have. -/
def nameLimit : Nat := 255

/-- The number of bytes that a path must stay below. -/
def pathLimit : Nat := 4096

/-- Fail unless a directory is at a place. -/
def expectDirectory (tree : FileTree) (location : Location) : Except IoError Unit :=
  match tree.entry? location with
  | some .directory => .ok ()
  | some (.file _) => .error .notDirectory
  | none => .error .notFound

/-- Go on from a directory by one part. -/
def enter (tree : FileTree) (location : Location) (part : String) : Except IoError Location := do
  tree.expectDirectory location
  if part = "" ∨ part = "." then return location
  else if part = ".." then return location.dropLast
  else if nameLimit < part.utf8ByteSize then .error .nameTooLong
  else return location ++ [part]

/-- Go on from a directory by several parts. -/
def follow (tree : FileTree) (location : Location) (parts : List String) :
    Except IoError Location :=
  parts.foldlM tree.enter location

def start (tree : FileTree) (path : String) : Location :=
  if Path.isAbsolute path then [] else tree.workingDirectory

/-- The place that a path names; nothing needs to be there. -/
def locate (tree : FileTree) (path : String) : Except IoError Location :=
  if pathLimit ≤ path.utf8ByteSize then .error .nameTooLong
  else tree.follow (tree.start path) (Path.parts path)

/-- The content of a file. -/
def read (tree : FileTree) (path : String) : Except IoError (List UInt8) := do
  match tree.entry? (← tree.locate path) with
  | some (.file content) => return content
  | some .directory => .error .isDirectory
  | none => .error .notFound

/-- Whether a directory is there. -/
def isDirectory (tree : FileTree) (path : String) : Bool :=
  match tree.locate path with
  | .ok location => tree.entry? location == some .directory
  | .error _ => false

/-- Make a directory where nothing is. -/
def makeDirectory (tree : FileTree) (path : String) : Except IoError FileTree := do
  let location ← tree.locate path
  match tree.entry? location with
  | none => return tree.put location .directory
  | some _ => .error .alreadyExists

/-- The parts of a path without empty ones at the end, and whether there were any. -/
def trimmedParts (path : String) : List String × Bool :=
  let reversed := (Path.parts path).reverse
  ((reversed.dropWhile (· == "")).reverse, reversed.head? == some "")

/-- Write a file, over what it holds already. -/
def write (tree : FileTree) (path : String) (content : List UInt8) : Except IoError FileTree := do
  if pathLimit ≤ path.utf8ByteSize then .error .nameTooLong
  let (parts, isSlashed) := trimmedParts path
  let directory ← tree.follow (tree.start path) parts.dropLast
  tree.expectDirectory directory
  let name := parts.getLast?.getD "."
  if isSlashed || name == "." || name == ".." then .error .isDirectory
  let location ← tree.enter directory name
  match tree.entry? location with
  | some .directory => .error .isDirectory
  | _ => return tree.put location (.file content)

/-- Go over to a tree, unless there is an error. -/
def become : Except IoError FileTree → StateM FileTree (Except IoError Unit)
  | .ok tree => do
      set tree
      return .ok ()
  | .error error => return .error error

def access : FileAccess (StateM FileTree) where
  read path := do return (← get).read path
  isDirectory path := do return (← get).isDirectory path
  makeDirectory path := do become ((← get).makeDirectory path)
  write path content := do become ((← get).write path content)

end FileTree

end ProgramModel
