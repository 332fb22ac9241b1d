/-
# ProgramModel.Load -- bundles from text

A bundle is read from JSON or YAML and then checked: every artifact id in its table
has to be a coordinate.  Of several ids that are not, the one with the least class
name is reported.
-/
import ProgramModel.Format.Analysis

namespace ProgramModel

set_option autoImplicit false

/-- Why a bundle cannot be loaded. -/
inductive LoadError where
  | json (fault : Json.Fault)
  | yaml
  /-- The id of a class's artifact is no coordinate. -/
  | artifactId (name text : String)

/-- What is said of a YAML text that is refused. -/
def LoadError.yamlDetail : String := "not a document of the expected shape"

/-- The wording of each error. -/
def LoadError.message : LoadError → String
  | .json fault => "invalid JSON: " ++ fault.message
  | .yaml => "invalid YAML: " ++ yamlDetail
  | .artifactId name text =>
      "invalid artifact id for class " ++ name ++ ": " ++ ArtifactRecord.coordinateFault text

/-- An error with what it comes from. -/
def LoadError.chain (error : LoadError) : List String :=
  error.message :: match error with
    | .json fault => [fault.message]
    | .yaml => [yamlDetail]
    | .artifactId .. => []

namespace AnalysisBundle

/-- The bundle, if the artifact ids in its table are coordinates. -/
def validate (bundle : AnalysisBundle) : Except LoadError AnalysisBundle :=
  match bundle.classArtifacts.toList.find? fun entry =>
      (ArtifactRecord.ofCoordinate? entry.2).isNone with
  | some (name, text) => .error (.artifactId name text)
  | none => .ok bundle

/-- The bundle that was read, if it is valid. -/
def validated (bundle : Logged AnalysisBundle) : Except LoadError (Logged AnalysisBundle) := do
  let value ← bundle.value.validate
  return { bundle with value }

def ofJson (text : List Char) : Except LoadError (Logged AnalysisBundle) := do
  validated (← (Format.bundle.ofJson (text.map .char)).mapError .json)

def ofYaml (text : List Char) : Except LoadError (Logged AnalysisBundle) :=
  match Format.bundle.ofYaml? text with
  | some bundle => validated bundle
  | none => .error .yaml

end AnalysisBundle

end ProgramModel
