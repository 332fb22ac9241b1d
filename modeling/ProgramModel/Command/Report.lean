/-
# ProgramModel.Command.Report -- what a command has to say

A report is shown as text or as JSON.  In JSON the keys of every object ascend.
-/
import ProgramModel.Document
import ProgramModel.Json.Basic

namespace ProgramModel

set_option autoImplicit false

/-- What a build made of one input. -/
structure BuildReport where
  input : String
  output : String
  artifacts : Nat
  classes : Nat
  resolvedCalls : Nat
  unresolvedCalls : Nat
  deriving DecidableEq, Repr

/-- The counts of a document, and the artifacts in it. -/
structure SummaryReport where
  input : String
  artifacts : List String
  classes : Nat
  expectedCalls : Nat
  resolvedCalls : Nat
  unresolvedCalls : Nat
  deriving DecidableEq, Repr

/-- What a command has to say. -/
inductive Report where
  | builds (reports : List BuildReport)
  | message (content : String)
  | summary (report : SummaryReport)
  deriving DecidableEq, Repr

def BuildReport.ofPackage (input output : String) (package : Package) : BuildReport where
  input := input
  output := output
  artifacts := package.artifacts.size
  classes := package.classes.size
  resolvedCalls := package.resolvedCalls.size
  unresolvedCalls := package.unresolvedCalls.size

def SummaryReport.ofDocument (input : String) (document : Document) : SummaryReport where
  input := input
  artifacts := document.artifacts.toList.map ArtifactRecord.coordinate
  classes := document.classes.size
  expectedCalls := document.expectedCallCount
  resolvedCalls := document.resolvedCalls.size
  unresolvedCalls := document.unresolvedCalls.size

/-! ## As text -/

/-- Two lines on a build. -/
def BuildReport.text (report : BuildReport) : String :=
  "📦 " ++ report.input ++ " -> " ++ report.output ++ "\n   artifacts: " ++
    toString report.artifacts ++ " | classes: " ++ toString report.classes ++
    " | resolved calls: " ++ toString report.resolvedCalls ++ " | unresolved calls: " ++
    toString report.unresolvedCalls ++ "\n"

/-- A few lines on a document. -/
def SummaryReport.text (report : SummaryReport) : String :=
  "📋 Package: " ++ report.input ++ "\n" ++
    "----------------------------------------\n" ++
    "Artifacts: " ++ String.intercalate ", " report.artifacts ++ "\n" ++
    "Classes: " ++ toString report.classes ++ " | Expected calls: " ++
    toString report.expectedCalls ++ "\nResolved calls: " ++ toString report.resolvedCalls ++
    " | Unresolved calls: " ++ toString report.unresolvedCalls ++ "\n"

def Report.text : Report → String
  | .builds reports => String.join (reports.map BuildReport.text)
  | .message content => content
  | .summary report => report.text

/-! ## As JSON -/

def BuildReport.json (report : BuildReport) : Json :=
  .object [("artifacts", .number report.artifacts), ("classes", .number report.classes),
    ("input", .text report.input), ("output", .text report.output),
    ("resolvedCalls", .number report.resolvedCalls),
    ("unresolvedCalls", .number report.unresolvedCalls)]

/-- The report of a summary as JSON; which document it is about is not said. -/
def SummaryReport.json (report : SummaryReport) : Json :=
  .object [("artifacts", .array (report.artifacts.map .text)),
    ("classes", .number report.classes), ("expectedCalls", .number report.expectedCalls),
    ("resolvedCalls", .number report.resolvedCalls),
    ("unresolvedCalls", .number report.unresolvedCalls)]

def Report.json : Report → Json
  | .builds reports => .array (reports.map BuildReport.json)
  | .message content => .text content
  | .summary report => report.json

/-- What is printed in JSON of a command that succeeds. -/
def Report.success (report : Report) : Json :=
  .object [("data", report.json), ("success", .bool true)]

/-- What is printed in JSON of a command that fails. -/
def Report.failure (message : String) : Json :=
  .object [("error", .text message), ("success", .bool false)]

end ProgramModel
