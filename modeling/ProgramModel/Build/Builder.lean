/-
# ProgramModel.Build.Builder -- a build in two phases

A build enters all class hierarchies before the first call graph, so that a call
finds the methods that the hierarchies declared.  `PackageBuilder` keeps the
phase and refuses a hierarchy that comes too late.  `Package.ofAnalyses` runs a
whole build; it looks for missing inputs before it enters anything.
-/
import ProgramModel.Analysis
import ProgramModel.Build.Calls
import ProgramModel.Build.Hierarchy

namespace ProgramModel

set_option autoImplicit false

/-- Why a build stops. -/
inductive BuildError where
  /-- An analysis has no class hierarchy. -/
  | missingHierarchy (artifact : ArtifactRecord)
  /-- An analysis has no call graph. -/
  | missingCallGraph (artifact : ArtifactRecord)
  /-- A hierarchy comes after the first call graph. -/
  | hierarchyAfterCallGraph
  deriving DecidableEq, Repr

/-- The wording of each error. -/
def BuildError.message : BuildError → String
  | .missingHierarchy artifact => "artifact " ++ artifact.coordinate ++ " has no class hierarchy"
  | .missingCallGraph artifact => "artifact " ++ artifact.coordinate ++ " has no call graph"
  | .hierarchyAfterCallGraph => "class hierarchy inserted after call graph insertion started"

/-! ## Step by step -/

/-- What a build is doing. -/
inductive Phase where
  | hierarchies
  | callGraphs
  deriving DecidableEq, Repr, Inhabited

/-- A build under way. -/
structure PackageBuilder where
  resolver : ArtifactResolver
  package : Package := {}
  phase : Phase := .hierarchies

namespace PackageBuilder

/-- Enter artifacts; one that is there already is reported. -/
def setArtifacts (builder : PackageBuilder) : List ArtifactRecord → Logged PackageBuilder
  | [] => pure builder
  | artifact :: rest => do
      if builder.package.artifacts.contains artifact then
        Logged.report (.artifactRepeated artifact)
      { builder with package := builder.package.addArtifact artifact }.setArtifacts rest

/-- Enter a hierarchy, unless a call graph has been entered. -/
def insertHierarchy (builder : PackageBuilder) (hierarchy : ClassHierarchy) :
    Except BuildError (Logged (PackageBuilder × Nat)) :=
  match builder.phase with
  | .callGraphs => .error .hierarchyAfterCallGraph
  | .hierarchies => .ok do
      let (package, inserted) ← builder.package.insertHierarchy builder.resolver hierarchy
      pure ({ builder with package }, inserted)

/-- Enter a call graph, which ends the phase of the hierarchies. -/
def insertCallGraph (builder : PackageBuilder) (graph : CallGraph) :
    Logged (PackageBuilder × Nat) := do
  let (package, inserted) ← builder.package.insertCallGraph builder.resolver graph
  pure ({ builder with package, phase := .callGraphs }, inserted)

end PackageBuilder

/-! ## All at once -/

/-- An analysis with both of its halves. -/
structure CompleteAnalysis where
  artifact : ArtifactRecord
  hierarchy : ClassHierarchy
  callGraph : CallGraph

/-- The analysis, if nothing of it is missing. -/
def ArtifactAnalysis.complete (analysis : ArtifactAnalysis) :
    Except BuildError CompleteAnalysis :=
  match analysis.hierarchy, analysis.callGraph with
  | none, _ => .error (.missingHierarchy analysis.artifact)
  | some _, none => .error (.missingCallGraph analysis.artifact)
  | some hierarchy, some callGraph => .ok ⟨analysis.artifact, hierarchy, callGraph⟩

namespace PackageBuilder

/-- Enter the hierarchies of analyses, in their order. -/
def insertHierarchies (builder : PackageBuilder) :
    List CompleteAnalysis → Except BuildError (Logged PackageBuilder)
  | [] => .ok (pure builder)
  | analysis :: rest => do
      let step ← builder.insertHierarchy analysis.hierarchy
      let further ← step.value.1.insertHierarchies rest
      .ok do
        Logged.report (.hierarchyStarted analysis.artifact)
        let _ ← step
        further

/-- Enter the call graphs of analyses, in their order. -/
def insertCallGraphs (builder : PackageBuilder) : List CompleteAnalysis → Logged PackageBuilder
  | [] => pure builder
  | analysis :: rest => do
      Logged.report (.callGraphStarted analysis.artifact)
      let (builder, _) ← builder.insertCallGraph analysis.callGraph
      builder.insertCallGraphs rest

end PackageBuilder

namespace Package

/-- What is reported about a finished package. -/
def summaryEvent (package : Package) : Event :=
  .packageBuilt package.artifacts.size package.classes.size package.resolvedCalls.size
    package.unresolvedCalls.size

/-- The package of a set of analyses.  It fails exactly when an input is missing, and then names
the first analysis that lacks one. -/
def ofAnalyses (resolver : ArtifactResolver) (analyses : List ArtifactAnalysis) :
    Except BuildError (Logged Package) := do
  let inputs ← analyses.mapM ArtifactAnalysis.complete
  let started := PackageBuilder.setArtifacts { resolver } (analyses.map ArtifactAnalysis.artifact)
  let classified ← started.value.insertHierarchies inputs
  .ok do
    let _ ← started
    let builder ← classified
    let finished ← builder.insertCallGraphs inputs
    Logged.report finished.package.summaryEvent
    pure finished.package

/-- The package of a bundle, under the resolver that it carries. -/
def ofBundle (bundle : AnalysisBundle) : Except BuildError (Logged Package) :=
  ofAnalyses bundle.index.resolver bundle.analyses

end Package

end ProgramModel
