/-
# ProgramModel.Command.Invocation -- what the program is asked to do

The program has four commands.  The level of the log is set before the command, and
`--json` may stand before it or among its words.  Paths are never empty.
-/
import ProgramModel.Command.Arguments

namespace ProgramModel

set_option autoImplicit false

inductive Command where
  /-- Build the model of each bundle and write its document into a directory. -/
  | build (inputs : List String) (directory : String) (isCompact : Bool)
  /-- List the unresolved calls of a bundle's model. -/
  | unresolved (input : String)
  /-- Draw the graph of a bundle's model. -/
  | graph (input : String) (output : Option String)
  /-- Count what a document holds. -/
  | summary (input : String)
  deriving DecidableEq, Repr

/-- A command line that makes sense. -/
structure Invocation where
  logLevel : String
  wantsJson : Bool
  command : Command
  deriving DecidableEq, Repr

namespace Command

/-- The flag that asks for reports in JSON. -/
def jsonFlag : String := "json"

/-- The flag that asks for documents without line breaks. -/
def compactFlag : String := "compact"

/-- The option that says where output goes. -/
def outputOption : ValueOption := ⟨"output", some 'o'⟩

def logLevelOption : ValueOption := ⟨"log-level", none⟩

/-- The directory that documents are written into unless another is given. -/
def defaultDirectory : String := "output"

/-- The level of the log unless another is given. -/
def defaultLogLevel : String := "info"

/-- A path, unless it is empty. -/
def path? (text : String) : Option String := if text = "" then none else some text

/-- The path that an option gives, if it is given. -/
def pathOption? (given : Given) (option : ValueOption) : Option (Option String) :=
  match given.option? option.name with
  | none => some none
  | some text => (path? text).map some

/-- The only value. -/
def onlyPath? (given : Given) : Option String :=
  match given.values with
  | [text] => path? text
  | _ => none

/-- What a command accepts, by the name of the command. -/
def accepted? : String → Option Accepted
  | "build" => some { flags := [jsonFlag, compactFlag], options := [outputOption] }
  | "unresolved" => some { flags := [jsonFlag] }
  | "dot" => some { flags := [jsonFlag], options := [outputOption] }
  | "summary" => some { flags := [jsonFlag] }
  | _ => none

def ofGiven? (name : String) (given : Given) : Option Command := do
  match name with
  | "build" =>
      guard !given.values.isEmpty
      let inputs ← given.values.mapM path?
      let directory ← pathOption? given outputOption
      return .build inputs (directory.getD defaultDirectory) (given.hasFlag compactFlag)
  | "unresolved" => return .unresolved (← onlyPath? given)
  | "dot" => return .graph (← onlyPath? given) (← pathOption? given outputOption)
  | "summary" => return .summary (← onlyPath? given)
  | _ => none

end Command

open Command in
/-- The invocation that the words of a command line are, if they make sense. -/
def Invocation.ofWords? (words : List String) : Option Invocation := do
  let (outer, rest) ← gather? { flags := [jsonFlag], options := [logLevelOption] } true words {}
  match rest with
  | [] => none
  | name :: rest =>
      let (given, _) ← gather? (← accepted? name) false rest {}
      return { logLevel := (outer.option? logLevelOption.name).getD defaultLogLevel
               wantsJson := outer.hasFlag jsonFlag || given.hasFlag jsonFlag
               command := ← ofGiven? name given }

end ProgramModel
