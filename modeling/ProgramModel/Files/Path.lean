/-
# ProgramModel.Files.Path -- the parts of a path

A path names its parts between slashes.  Empty parts and the part `.` say nothing,
except that a relative path may begin with `.`.  The last part is the name of a file
unless it is `..`; the name divides at its last dot into stem and extension, where a
dot at the front divides nothing.

A path is a text here.  A path of a file system need not be one: it may have bytes that
are no UTF-8, and the stem of such a path cannot always be told as text.  What then
stands in for the stem is outside of what these functions are about.
-/
import ProgramModel.Sorted.Order

namespace ProgramModel.Path

set_option autoImplicit false

/-- The parts of a text between its slashes; there is always one more than there are slashes. -/
def split : List Char → List (List Char)
  | [] => [[]]
  | c :: rest =>
      if c = '/' then [] :: split rest
      else match split rest with
        | [] => [[c]]
        | part :: others => (c :: part) :: others

/-- All parts of a path, also those that say nothing. -/
def parts (path : String) : List String := (split path.toList).map String.ofList

/-- Whether a path starts from the root. -/
def isAbsolute (path : String) : Bool := path.toList.head? == some '/'

/-- Whether a part says something. -/
def isProper (part : String) : Bool := part ≠ "" && part ≠ "."

/-- The parts of a path that say something; a `.` at the front of a relative path is one. -/
def components (path : String) : List String :=
  let proper := (parts path).filter isProper
  if (parts path).head? = some "." then "." :: proper else proper

def fileName? (path : String) : Option String :=
  (components path).getLast?.filter fun part => part ≠ "." && part ≠ ".."

/-- The parts before and after the last dot of a name. -/
def divide? : List Char → Option (List Char × List Char)
  | [] => none
  | c :: rest =>
      match divide? rest with
      | some (before, after) => some (c :: before, after)
      | none => if c = '.' then some ([], rest) else none

/-- The stem and the extension of a name; a name may have no extension. -/
def stemAndExtension (name : String) : String × Option String :=
  match divide? name.toList with
  | some (c :: stem, extension) => (String.ofList (c :: stem), some (String.ofList extension))
  | _ => (name, none)

/-- The stem of the file that a path names. -/
def stem? (path : String) : Option String :=
  (fileName? path).map fun name => (stemAndExtension name).1

/-- The extension of the file that a path names. -/
def extension? (path : String) : Option String :=
  (fileName? path).bind fun name => (stemAndExtension name).2

/-- The path of a file in a directory. -/
def join (directory name : String) : String :=
  if directory = "" ∨ directory.toList.getLast? = some '/' then directory ++ name
  else directory ++ "/" ++ name

def directoryParts (path : String) : List String := (components path).dropLast

/-- The path whose parts are given, the last one first. -/
def ofParts (fromRoot : Bool) (parts : List String) : String :=
  (if fromRoot then "/" else "") ++ String.intercalate "/" parts.reverse

/-- The paths of the directories around a part, given the parts before it, the last one first. -/
def around (fromRoot : Bool) : List String → List String
  | [] => if fromRoot then ["/"] else []
  | part :: outer => ofParts fromRoot (part :: outer) :: around fromRoot outer

/-- The paths of the directories that a path stands in, the closest one first. -/
def directories (path : String) : List String :=
  around (isAbsolute path) (directoryParts path).reverse

end ProgramModel.Path
