/-
# ProgramModel.Main -- the program on the disk

The commands run on the files of the machine.  What they print goes to standard output,
and the log and the failure go to standard error.
-/
import ProgramModel.Command.Run

namespace ProgramModel

set_option autoImplicit false

/-- The number of an operating system's error, and what the system says of it. -/
def systemFault? : IO.Error → Option (UInt32 × String)
  | .alreadyExists _ code details
  | .otherError code details
  | .resourceBusy code details
  | .resourceVanished code details
  | .unsupportedOperation code details
  | .hardwareFault code details
  | .unsatisfiedConstraints code details
  | .illegalOperation code details
  | .protocolError code details
  | .timeExpired code details
  | .interrupted _ code details
  | .noFileOrDirectory _ code details
  | .invalidArgument _ code details
  | .permissionDenied _ code details
  | .resourceExhausted _ code details
  | .inappropriateType _ code details
  | .noSuchThing _ code details => some (code, details)
  | .unexpectedEof => none
  | .userError _ => none

/-- The number of an error, where a library has put a minus sign before it. -/
def plainCode (code : UInt32) : Nat :=
  if code.toNat < 0x80000000 then code.toNat else UInt32.size - code.toNat

def IoError.ofSystem (error : IO.Error) : IoError :=
  match systemFault? error with
  | none => .other (toString error)
  | some (code, details) =>
      match plainCode code with
      | 2 => .notFound
      | 17 => .alreadyExists
      | 20 => .notDirectory
      | 21 => .isDirectory
      | 36 => .nameTooLong
      | code => .other (details.capitalize ++ " (os error " ++ toString code ++ ")")

/-- An operation on the disk, with what may go wrong as a value. -/
def attempted {α : Type} (operation : IO α) : IO (Except IoError α) := do
  match ← operation.toBaseIO with
  | .ok value => return .ok value
  | .error error => return .error (.ofSystem error)

/-- The files of the machine. -/
def FileAccess.disk : FileAccess IO where
  read path := attempted do return (← IO.FS.readBinFile path).toList
  isDirectory path := do
    match ← attempted do (← IO.FS.Handle.mk path .read).read 1 with
    | .error .isDirectory => return true
    | _ => return false
  makeDirectory path := attempted (IO.FS.createDir path)
  write path content := attempted (IO.FS.writeBinFile path ⟨content.toArray⟩)

/-- What is said of a command line that makes no sense. -/
def usage : String :=
  "usage: [--log-level LEVEL] [--json] COMMAND\n" ++
    "  build INPUT... [--output DIRECTORY] [--compact]\n" ++
    "  unresolved INPUT\n" ++
    "  dot INPUT [--output FILE]\n" ++
    "  summary DOCUMENT\n"

end ProgramModel

open ProgramModel in
/-- Run the program on the words of the command line. -/
def main (words : List String) : IO UInt32 := do
  let outcome ← runWords FileAccess.disk words
  let errors ← IO.getStderr
  for event in outcome.log do
    errors.putStrLn (event.level.tag ++ " " ++ event.message)
  IO.print outcome.output
  if outcome.exitCode = 2 then errors.putStr usage
  match outcome.error with
  | some error => errors.putStr ("Error: " ++ error)
  | none => pure ()
  return outcome.exitCode.toUInt32
