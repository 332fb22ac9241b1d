/-
# ProgramModel.Command.Run -- the commands

Every command reads, computes, and says what came of it.  The commands work on any
`FileAccess`; what they print and their exit code is an `Outcome`.

A build decides where every output goes before it reads the first input, and refuses
two inputs with one output.  The inputs are then built one by one, each on its own;
when some fail, the first of them is reported.
-/
import ProgramModel.Command.Failure
import ProgramModel.Command.Invocation
import ProgramModel.Command.Report
import ProgramModel.Files.Path
import ProgramModel.View

namespace ProgramModel

set_option autoImplicit false

/-! ## Outputs -/

/-- The file name of the document that is built from an input.  An input without a stem counts as
`package`.  So would one whose stem is not UTF-8; but paths are texts here, so there is none. -/
def outputName (input : String) : String :=
  (Path.stem? input).getD "package" ++ ".lapp.json"

/-- The path of the document that is built from an input. -/
def outputPath (directory input : String) : String := Path.join directory (outputName input)

/-- The paths of the documents that are built from inputs, given the outputs taken already and the
inputs that took them. -/
def outputPathsFrom (directory : String) :
    List (String × String) → List String → Except Failure (List String)
  | _, [] => .ok []
  | taken, input :: rest =>
      let output := outputPath directory input
      match taken.find? (·.1 == output) with
      | some (_, first) => .error (.collision first input output)
      | none => (outputPathsFrom directory ((output, input) :: taken) rest).map (output :: ·)

/-- The paths of the documents that are built from inputs, which have to differ. -/
def outputPaths (directory : String) (inputs : List String) : Except Failure (List String) :=
  outputPathsFrom directory [] inputs

/-! ## Reading -/

/-- Whether an input is written in YAML. -/
def isYaml (path : String) : Bool :=
  match Path.extension? path with
  | some "yaml" | some "yml" => true
  | _ => false

def bundleOfContent (path : String) (content : List UInt8) :
    Except ReadError (Logged AnalysisBundle) :=
  match Text.decode? content with
  | none => .error (.file path .notText)
  | some text =>
      (if isYaml path then AnalysisBundle.ofYaml text else AnalysisBundle.ofJson text).mapError
        .content

/-- The bundle that reading a file came to. -/
def bundleOfRead (path : String) (read : Except IoError (List UInt8)) :
    Except ReadError (Logged AnalysisBundle) :=
  match read with
  | .error cause => .error (.file path cause)
  | .ok content => bundleOfContent path content

/-- What came of a part of a command, and what it has to say in the log. -/
abbrev Attempt (α : Type) := Logged (Except Failure α)

/-- The package of the bundle that reading a file came to. -/
def packageOfRead (path : String) (read : Except IoError (List UInt8)) : Attempt Package :=
  match bundleOfRead path read with
  | .error cause => ⟨.error (.load path cause), []⟩
  | .ok bundle =>
      match Package.ofBundle bundle.value with
      | .error cause => ⟨.error (.build path cause), bundle.log⟩
      | .ok package => ⟨.ok package.value, bundle.log ++ package.log⟩

/-- The document that reading a file came to.  A directory can be opened but not read. -/
def documentOfRead (path : String) (read : Except IoError (List UInt8)) :
    Except Failure Document :=
  match read with
  | .error .isDirectory => .error (.readDocument (.interrupted .isDirectory))
  | .error cause => .error (.readDocument (.file path cause))
  | .ok content =>
      (Document.ofJson (Text.decode content)).mapError fun fault =>
        .readDocument (.content (.json fault))

/-! ## Commands -/

section
variable {m : Type → Type} [Monad m]

def buildOne (files : FileAccess m) (layout : Json.Layout) (input output : String) :
    m (Attempt BuildReport) := do
  match packageOfRead input (← files.read input) with
  | ⟨.error failure, log⟩ => return ⟨.error failure, log⟩
  | ⟨.ok package, log⟩ =>
      let log := log ++ [.documentWritten output]
      let content := Text.encode (package.document.chars layout)
      match ← files.makeDirectoryOf output with
      | .error cause => return ⟨.error (.writeDocument output cause), log⟩
      | .ok () =>
          match ← files.write output content with
          | .error cause => return ⟨.error (.writeDocument output cause), log⟩
          | .ok () => return ⟨.ok (.ofPackage input output package), log⟩

/-- Build the documents of several inputs, whatever comes of each. -/
def buildEach (files : FileAccess m) (layout : Json.Layout) :
    List (String × String) → m (List (Attempt BuildReport))
  | [] => return []
  | (input, output) :: rest => do
      let first ← buildOne files layout input output
      return first :: (← buildEach files layout rest)

/-- The build command. -/
def buildAll (files : FileAccess m) (inputs : List String) (directory : String)
    (isCompact : Bool) : m (Attempt Report) :=
  match outputPaths directory inputs with
  | .error failure => return ⟨.error failure, []⟩
  | .ok outputs => do
      let layout := if isCompact then .compact else .indented
      let results ← buildEach files layout (inputs.zip outputs)
      return ⟨.builds <$> results.mapM Logged.value, results.flatMap Logged.log⟩

/-- The command that lists unresolved calls. -/
def listUnresolved (files : FileAccess m) (input : String) : m (Attempt Report) := do
  match packageOfRead input (← files.read input) with
  | ⟨.error failure, log⟩ => return ⟨.error failure, log⟩
  | ⟨.ok package, log⟩ => return ⟨.ok (.message (View.unresolved.text package)), log⟩

/-- The command that draws the graph, to a file if one is given. -/
def drawGraph (files : FileAccess m) (input : String) (output : Option String) :
    m (Attempt Report) := do
  match packageOfRead input (← files.read input) with
  | ⟨.error failure, log⟩ => return ⟨.error failure, log⟩
  | ⟨.ok package, log⟩ =>
      let text := (View.graph View.graphName).text package
      match output with
      | none => return ⟨.ok (.message text), log⟩
      | some path =>
          match ← files.write path (Text.encode text.toList) with
          | .error cause => return ⟨.error (.writeGraph path cause), log⟩
          | .ok () => return ⟨.ok (.message ("DOT written to " ++ path ++ "\n")), log⟩

/-- The command that counts what a document holds. -/
def summarize (files : FileAccess m) (input : String) : m (Attempt Report) := do
  match documentOfRead input (← files.read input) with
  | .error failure => return ⟨.error failure, []⟩
  | .ok document => return ⟨.ok (.summary (.ofDocument input document)), []⟩

def Command.run (files : FileAccess m) : Command → m (Attempt Report)
  | .build inputs directory isCompact => buildAll files inputs directory isCompact
  | .unresolved input => listUnresolved files input
  | .graph input output => drawGraph files input output
  | .summary input => summarize files input

/-! ## The program -/

/-- What the program prints and how it ends. -/
structure Outcome where
  exitCode : Nat
  output : String := ""
  /-- The failure that is printed as an error. -/
  error : Option String := none
  log : List Event := []

def printed (json : Json) : String := json.render .indented ++ "\n"

/-- What is printed of the result of a command. -/
def Outcome.ofResult (wantsJson : Bool) (result : Except Failure Report) : Outcome :=
  match result, wantsJson with
  | .ok report, false => { exitCode := 0, output := report.text }
  | .ok report, true => { exitCode := 0, output := printed report.success }
  | .error failure, false => { exitCode := 1, error := some (failure.report ++ "\n") }
  | .error failure, true => { exitCode := 1, output := printed (Report.failure failure.line) }

def Invocation.run (files : FileAccess m) (invocation : Invocation) : m Outcome := do
  match Level.ofSetting? invocation.logLevel with
  | none =>
      return { exitCode := 1
               error := some ((Failure.logLevel invocation.logLevel).report ++ "\n") }
  | some level =>
      let result ← invocation.command.run files
      let log := result.log.filter fun event => event.level.rank ≤ level.rank
      return { Outcome.ofResult invocation.wantsJson result.value with log }

/-- Run a command line.  One that makes no sense ends with exit code 2. -/
def runWords (files : FileAccess m) (words : List String) : m Outcome :=
  match Invocation.ofWords? words with
  | none => return { exitCode := 2 }
  | some invocation => invocation.run files

end

end ProgramModel
