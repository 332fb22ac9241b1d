/-
# ProgramModel.Command.Failure -- why a command fails

A failure is a chain of causes, the outermost first.  It is shown in full over several
lines, with the causes numbered when there are several, or on one line with colons
between the causes.
-/
import ProgramModel.Build.Builder
import ProgramModel.Command.LogLevel
import ProgramModel.Files.Basic
import ProgramModel.Load

namespace ProgramModel

set_option autoImplicit false

/-- Why something cannot be read from a file. -/
inductive ReadError where
  /-- The file cannot be read. -/
  | file (path : String) (cause : IoError)
  /-- What is in the file cannot be used. -/
  | content (cause : LoadError)
  /-- A document breaks off because the rest of the file cannot be read. -/
  | interrupted (cause : IoError)

/-- What is said of a file that cannot be used. -/
def ioMessage (path : String) (cause : IoError) : String :=
  "I/O error on " ++ path ++ ": " ++ cause.message

/-- An error with what it comes from. -/
def ReadError.chain : ReadError → List String
  | .file path cause => [ioMessage path cause, cause.message]
  | .content cause => cause.chain
  | .interrupted cause => ["invalid JSON: " ++ cause.message, cause.message]

/-- Why a command fails. -/
inductive Failure where
  | logLevel (setting : String)
  /-- Two inputs have the same output. -/
  | collision (first second output : String)
  | load (input : String) (cause : ReadError)
  | build (input : String) (cause : BuildError)
  | writeDocument (output : String) (cause : IoError)
  | writeGraph (output : String) (cause : IoError)
  | readDocument (cause : ReadError)

namespace Failure

/-- A failure with what it comes from. -/
def chain : Failure → List String
  | .logLevel setting => [Level.settingFault setting]
  | .collision first second output =>
      ["Inputs " ++ first ++ " and " ++ second ++ " would both be written to " ++ output]
  | .load input cause => ("Failed to load analysis bundle " ++ input) :: cause.chain
  | .build input cause => ["Failed to build package for " ++ input, cause.message]
  | .writeDocument output cause =>
      ["Failed to write " ++ output, ioMessage output cause, cause.message]
  | .writeGraph output cause => ["Failed to write " ++ output, cause.message]
  | .readDocument cause => cause.chain

def line (failure : Failure) : String := String.intercalate ": " failure.chain

/-- A text whose lines after the first are indented. -/
def indented (indentation : String) (text : String) : String :=
  String.ofList <| text.toList.flatMap fun c => if c = '\n' then '\n' :: indentation.toList else [c]

/-- The place of a cause in a list of several, in front of it. -/
def numbering (place : Nat) : String :=
  let digits := toString place
  String.ofList (List.replicate (5 - digits.length) ' ') ++ digits ++ ": "

/-- Causes, a line each. -/
def causeLines (causes : List String) : List String :=
  match causes with
  | [cause] => ["    " ++ indented "    " cause]
  | causes => causes.zipIdx.map fun (cause, place) => numbering place ++ indented "       " cause

/-- A failure in full. -/
def report (failure : Failure) : String :=
  match failure.chain with
  | [] => ""
  | [message] => message
  | message :: causes =>
      message ++ "\n\nCaused by:\n" ++ String.intercalate "\n" (causeLines causes)

end Failure

end ProgramModel
