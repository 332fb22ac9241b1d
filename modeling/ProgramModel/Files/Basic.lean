/-
# ProgramModel.Files.Basic -- what the program asks of a file system

The commands read files, make directories and write files; nothing else.  They take
these operations as a value, so that they run on a real file system as well as
on a `FileTree`.
-/
import ProgramModel.Files.Path

namespace ProgramModel

set_option autoImplicit false

/-- Why a file operation fails. -/
inductive IoError where
  /-- A file or directory does not exist. -/
  | notFound
  /-- A directory is in the place of a file. -/
  | isDirectory
  /-- A file is in the place of a directory. -/
  | notDirectory
  /-- What is to be made exists. -/
  | alreadyExists
  /-- A name is too long. -/
  | nameTooLong
  /-- A file that is to be read as text is not UTF-8. -/
  | notText
  /-- Anything else. -/
  | other (message : String)
  deriving DecidableEq, Repr

/-- The wording of each error. -/
def IoError.message : IoError → String
  | .notFound => "No such file or directory (os error 2)"
  | .isDirectory => "Is a directory (os error 21)"
  | .notDirectory => "Not a directory (os error 20)"
  | .alreadyExists => "File exists (os error 17)"
  | .nameTooLong => "File name too long (os error 36)"
  | .notText => "stream did not contain valid UTF-8"
  | .other message => message

/-- Operations on files, as effects of `m`. -/
structure FileAccess (m : Type → Type) where
  /-- The content of a file. -/
  read : String → m (Except IoError (List UInt8))
  /-- Whether a directory is there. -/
  isDirectory : String → m Bool
  /-- Make a directory where nothing is. -/
  makeDirectory : String → m (Except IoError Unit)
  /-- Write a file, over what it holds already. -/
  write : String → List UInt8 → m (Except IoError Unit)

namespace FileAccess

variable {m : Type → Type} [Monad m]

/-- What making a directory came to, where a directory that is there already will do. -/
def settle (files : FileAccess m) (directory : String) :
    Except IoError Unit → m (Except IoError Unit)
  | .ok () => return .ok ()
  | .error error => do
      if ← files.isDirectory directory then return .ok () else return .error error

/-- Make a directory, and those around it as far as they are missing; the closest one comes
first. -/
def makeDirectories (files : FileAccess m) : List String → m (Except IoError Unit)
  | [] => return .ok ()
  | directory :: outer => do
      match ← files.makeDirectory directory with
      | .error .notFound =>
          match ← files.makeDirectories outer with
          | .error error => return .error error
          | .ok () => files.settle directory (← files.makeDirectory directory)
      | made => files.settle directory made

def makeDirectoryOf (files : FileAccess m) (path : String) : m (Except IoError Unit) :=
  files.makeDirectories (Path.directories path)

end FileAccess

end ProgramModel
