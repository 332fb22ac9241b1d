/-
# ProgramModel.Analysis -- what is known about one artifact, and about a set of them

An analysis is what the engine delivers for one artifact; either half of it may be
missing.  A bundle holds the analyses of one build and the table that says which
artifact ships which class.
-/
import ProgramModel.Artifact
import ProgramModel.Attribution
import ProgramModel.CallGraph
import ProgramModel.ClassHierarchy

namespace ProgramModel

set_option autoImplicit false

/-- What the engine found out about one artifact. -/
structure ArtifactAnalysis where
  artifact : ArtifactRecord
  hierarchy : Option ClassHierarchy := none
  callGraph : Option CallGraph := none
  deriving DecidableEq, Inhabited

/-- All input of one build. -/
structure AnalysisBundle where
  /-- Artifact coordinates by class name, in any spelling of the name. -/
  classArtifacts : SortedMap String String := ∅
  analyses : List ArtifactAnalysis := []
  deriving DecidableEq, Inhabited

namespace AnalysisBundle

def index (bundle : AnalysisBundle) : ArtifactIndex := ArtifactIndex.ofTable bundle.classArtifacts

/-- The artifacts of the analyses, as listed. -/
def artifacts (bundle : AnalysisBundle) : List ArtifactRecord :=
  bundle.analyses.map ArtifactAnalysis.artifact

end AnalysisBundle

end ProgramModel
