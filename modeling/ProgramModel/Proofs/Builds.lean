/-
# ProgramModel.Proofs.Builds -- a whole build, and the document it ends in

A build goes over its inputs three times: for the artifacts, the hierarchies and the call
graphs.  When no input is missing it cannot fail, since no hierarchy comes after a call
graph, and it ends in the package that the three passes `assemble`
(`ofAnalyses_complete`); when one is missing it ends in none (`complete_of_ofAnalyses`).

A package `Shows` a document when it is coherent and that is its document.  Each pass
keeps this, with the entries of the input on the side of the document, so the document of
a build is computed from the inputs alone (`Document.ofInputs`).  Its artifacts and calls
are images of the input (`document_ofAnalyses`).
-/
import ProgramModel.Build.Builder
import ProgramModel.Proofs.Documents

namespace ProgramModel

set_option autoImplicit false

/-! ## Complete inputs -/

/-- What a complete analysis was before it was found to be complete. -/
def CompleteAnalysis.analysis (input : CompleteAnalysis) : ArtifactAnalysis where
  artifact := input.artifact
  hierarchy := some input.hierarchy
  callGraph := some input.callGraph

theorem complete_analysis (input : CompleteAnalysis) : input.analysis.complete = .ok input := rfl

theorem complete_eq_ok {analysis : ArtifactAnalysis} {input : CompleteAnalysis}
    (complete : analysis.complete = .ok input) : analysis = input.analysis := by
  obtain ⟨artifact, hierarchy, callGraph⟩ := analysis
  cases hierarchy with
  | none => cases complete
  | some hierarchy =>
      cases callGraph with
      | none => cases complete
      | some callGraph =>
          cases complete
          rfl

theorem mapM_complete_analysis (inputs : List CompleteAnalysis) :
    (inputs.map CompleteAnalysis.analysis).mapM ArtifactAnalysis.complete = .ok inputs := by
  induction inputs with
  | nil => rfl
  | cons input rest ih =>
      rw [List.map_cons, List.mapM_cons, complete_analysis, ih]
      rfl

theorem mapM_complete_eq_ok {analyses : List ArtifactAnalysis} {inputs : List CompleteAnalysis}
    (complete : analyses.mapM ArtifactAnalysis.complete = .ok inputs) :
    analyses = inputs.map CompleteAnalysis.analysis := by
  induction analyses generalizing inputs with
  | nil =>
      cases complete
      rfl
  | cons analysis rest ih =>
      rw [List.mapM_cons] at complete
      cases first : analysis.complete with
      | error error =>
          rw [first] at complete
          cases complete
      | ok input =>
          cases others : rest.mapM ArtifactAnalysis.complete with
          | error error =>
              rw [first, others] at complete
              cases complete
          | ok further =>
              rw [first, others] at complete
              cases complete
              rw [List.map_cons, ← complete_eq_ok first, ← ih others]

/-! ## The three passes -/

namespace Package

variable (resolver : ArtifactResolver)

/-- The package with the artifact of an input. -/
def enterArtifact (package : Package) (input : CompleteAnalysis) : Package :=
  package.addArtifact input.artifact

/-- The package with the hierarchy of an input. -/
def enterHierarchy (package : Package) (input : CompleteAnalysis) : Package :=
  (package.insertHierarchy resolver input.hierarchy).value.1

/-- The package with the call graph of an input. -/
def enterCallGraph (package : Package) (input : CompleteAnalysis) : Package :=
  (package.insertCallGraph resolver input.callGraph).value.1

/-- What a build makes of its inputs. -/
def assemble (inputs : List CompleteAnalysis) : Package :=
  let started := inputs.foldl enterArtifact {}
  let classified := inputs.foldl (enterHierarchy resolver) started
  inputs.foldl (enterCallGraph resolver) classified

end Package

namespace PackageBuilder

theorem value_setArtifacts (builder : PackageBuilder) (artifacts : List ArtifactRecord) :
    (builder.setArtifacts artifacts).value =
      { builder with package := artifacts.foldl Package.addArtifact builder.package } := by
  induction artifacts generalizing builder with
  | nil => rfl
  | cons artifact rest ih =>
      rw [setArtifacts]
      split <;> exact ih _

/-- Before the first call graph no hierarchy is refused. -/
theorem insertHierarchy_eq_ok {builder : PackageBuilder} (open_ : builder.phase = .hierarchies)
    (input : CompleteAnalysis) :
    ∃ step, builder.insertHierarchy input.hierarchy = .ok step ∧
      step.value.1 =
        { builder with package := builder.package.enterHierarchy builder.resolver input } := by
  obtain ⟨resolver, package, phase⟩ := builder
  obtain rfl : phase = .hierarchies := open_
  exact ⟨_, rfl, rfl⟩

theorem insertHierarchies_eq_ok {builder : PackageBuilder} (open_ : builder.phase = .hierarchies)
    (inputs : List CompleteAnalysis) :
    ∃ done, builder.insertHierarchies inputs = .ok done ∧
      done.value = { builder with
        package := inputs.foldl (Package.enterHierarchy builder.resolver) builder.package } := by
  induction inputs generalizing builder with
  | nil => exact ⟨pure builder, rfl, rfl⟩
  | cons input rest ih =>
      -- A hierarchy leaves the phase as it is, so the next one is not refused either.
      obtain ⟨step, inserts, next⟩ := insertHierarchy_eq_ok open_ input
      have stays : step.value.1.phase = .hierarchies := by
        rw [next]
        exact open_
      obtain ⟨done, finishes, result⟩ := ih stays
      rw [insertHierarchies, inserts]
      simp only [bind, Except.bind, finishes]
      refine ⟨_, rfl, result.trans ?_⟩
      rw [next, List.foldl_cons]

theorem package_insertCallGraphs (builder : PackageBuilder) (inputs : List CompleteAnalysis) :
    (builder.insertCallGraphs inputs).value.package =
      inputs.foldl (Package.enterCallGraph builder.resolver) builder.package := by
  induction inputs generalizing builder with
  | nil => rfl
  | cons input rest ih =>
      rw [insertCallGraphs, List.foldl_cons]
      exact ih _

end PackageBuilder

namespace Package

variable (resolver : ArtifactResolver)

/-- **A build of complete inputs succeeds**, and its passes run one after the other. -/
theorem ofAnalyses_complete (inputs : List CompleteAnalysis) :
    ∃ built, ofAnalyses resolver (inputs.map CompleteAnalysis.analysis) = .ok built ∧
      built.value = assemble resolver inputs := by
  let builder : PackageBuilder := { resolver }
  have artifacts : (inputs.map CompleteAnalysis.analysis).map ArtifactAnalysis.artifact =
      inputs.map CompleteAnalysis.artifact := by
    rw [List.map_map]
    rfl
  have started := builder.value_setArtifacts (inputs.map CompleteAnalysis.artifact)
  rw [List.foldl_map] at started
  have open_ : (builder.setArtifacts (inputs.map CompleteAnalysis.artifact)).value.phase =
      .hierarchies := by
    rw [started]
  obtain ⟨done, classified, result⟩ := PackageBuilder.insertHierarchies_eq_ok open_ inputs
  unfold ofAnalyses
  rw [mapM_complete_analysis, artifacts]
  simp only [bind, Except.bind]
  rw [classified]
  refine ⟨_, rfl, ?_⟩
  calc (done.value.insertCallGraphs inputs).value.package
      = inputs.foldl (enterCallGraph done.value.resolver) done.value.package :=
        PackageBuilder.package_insertCallGraphs done.value inputs
    _ = assemble resolver inputs := by rw [result, started]; rfl

/-- **A build that succeeds has complete inputs.** -/
theorem complete_of_ofAnalyses {analyses : List ArtifactAnalysis} {built : Logged Package}
    (success : ofAnalyses resolver analyses = .ok built) :
    ∃ inputs : List CompleteAnalysis, analyses = inputs.map CompleteAnalysis.analysis ∧
      built.value = assemble resolver inputs := by
  cases complete : analyses.mapM ArtifactAnalysis.complete with
  | error error =>
      unfold ofAnalyses at success
      rw [complete] at success
      cases success
  | ok inputs =>
      obtain rfl := mapM_complete_eq_ok complete
      obtain ⟨other, builds, result⟩ := ofAnalyses_complete resolver inputs
      rw [builds] at success
      cases success
      exact ⟨inputs, rfl, result⟩

end Package

/-! ## The document of inputs -/

/-- The classes of an input, each with the hierarchy that it is in. -/
def CompleteAnalysis.located (input : CompleteAnalysis) : List (ClassHierarchy × ClassNode) :=
  input.hierarchy.classes.map (fun node => (input.hierarchy, node))

/-- The call edges of an input. -/
def CompleteAnalysis.edges (input : CompleteAnalysis) : List CallEdge := input.callGraph.edges

/-- The entries of those edges whose callee is attributed, or of those whose callee is not. -/
def ArtifactResolver.callEntries (resolver : ArtifactResolver) (attributed : Bool)
    (edges : List CallEdge) : List CallEntry :=
  (edges.filter fun edge => resolver.attributes edge.callee == attributed).map resolver.callEntry

namespace Document

variable (resolver : ArtifactResolver)

/-- The document of inputs, computed from them alone. -/
def ofInputs (inputs : List CompleteAnalysis) : Document where
  artifacts := SortedSet.ofList (inputs.map CompleteAnalysis.artifact)
  classes := (inputs.flatMap CompleteAnalysis.located).foldl (addClass resolver) ∅
  resolvedCalls := SortedSet.ofList
    (resolver.callEntries true (inputs.flatMap CompleteAnalysis.edges))
  unresolvedCalls := SortedSet.ofList
    (resolver.callEntries false (inputs.flatMap CompleteAnalysis.edges))

theorem foldl_enterArtifact (document : Document) (inputs : List CompleteAnalysis) :
    inputs.foldl (fun document input => document.enterArtifact input.artifact) document =
      { document with
        artifacts := (inputs.map CompleteAnalysis.artifact).foldl SortedSet.insert
          document.artifacts } := by
  induction inputs generalizing document with
  | nil => rfl
  | cons input rest ih => exact ih _

theorem foldl_enterClass (hierarchy : ClassHierarchy) (document : Document)
    (nodes : List ClassNode) :
    nodes.foldl (enterClass resolver hierarchy) document =
      { document with
        classes := (nodes.map fun node => (hierarchy, node)).foldl (addClass resolver)
          document.classes } := by
  induction nodes generalizing document with
  | nil => rfl
  | cons node rest ih => exact ih _

theorem foldl_enterClasses (document : Document) (inputs : List CompleteAnalysis) :
    inputs.foldl (fun document input =>
        input.hierarchy.classes.foldl (enterClass resolver input.hierarchy) document) document =
      { document with
        classes := (inputs.flatMap CompleteAnalysis.located).foldl (addClass resolver)
          document.classes } := by
  induction inputs generalizing document with
  | nil => rfl
  | cons input rest ih =>
      rw [List.foldl_cons, ih, foldl_enterClass, List.flatMap_cons, List.foldl_append]
      rfl

theorem foldl_enterEdge (document : Document) (edges : List CallEdge) :
    edges.foldl (enterEdge resolver) document =
      { document with
        resolvedCalls := (resolver.callEntries true edges).foldl SortedSet.insert
          document.resolvedCalls
        unresolvedCalls := (resolver.callEntries false edges).foldl SortedSet.insert
          document.unresolvedCalls } := by
  induction edges generalizing document with
  | nil => rfl
  | cons edge rest ih =>
      rw [List.foldl_cons, ih]
      cases half : resolver.attributes edge.callee with
      | true => simp [enterEdge, ArtifactResolver.callEntries, half]
      | false => simp [enterEdge, ArtifactResolver.callEntries, half]

end Document

/-! ## What the passes show -/

namespace Package

/-- The package is coherent, and the document is the document of it. -/
structure Shows (package : Package) (document : Document) : Prop where
  coherent : package.Coherent
  document : package.document = document

variable {package : Package} {document : Document}

theorem shows_empty : Shows {} {} := ⟨coherent_empty, rfl⟩

theorem Shows.enterArtifact (before : package.Shows document) (input : CompleteAnalysis) :
    (package.enterArtifact input).Shows (document.enterArtifact input.artifact) := by
  refine ⟨before.coherent.addArtifact input.artifact, ?_⟩
  rw [Package.enterArtifact, document_addArtifact, before.document]

variable (resolver : ArtifactResolver)

theorem Shows.enterHierarchy (before : package.Shows document) (input : CompleteAnalysis) :
    (package.enterHierarchy resolver input).Shows
      (input.hierarchy.classes.foldl (Document.enterClass resolver input.hierarchy) document) := by
  refine ⟨before.coherent.insertClasses resolver input.hierarchy input.hierarchy.classes, ?_⟩
  rw [← before.document]
  exact before.coherent.document_insertClasses resolver input.hierarchy input.hierarchy.classes

theorem Shows.enterCallGraph (before : package.Shows document) (input : CompleteAnalysis) :
    (package.enterCallGraph resolver input).Shows
      (input.edges.foldl (Document.enterEdge resolver) document) := by
  refine ⟨before.coherent.insertEdges resolver input.edges, ?_⟩
  rw [← before.document]
  exact before.coherent.document_insertEdges resolver input.edges

/-- **The document of a build is the document of its inputs.** -/
theorem shows_assemble (inputs : List CompleteAnalysis) :
    (assemble resolver inputs).Shows (Document.ofInputs resolver inputs) := by
  have started := List.foldl_rel (l := inputs) shows_empty
    fun input _ _ _ before => before.enterArtifact input
  have classified := List.foldl_rel (l := inputs) started
    fun input _ _ _ before => before.enterHierarchy resolver input
  have finished := List.foldl_rel (l := inputs) classified
    fun input _ _ _ before => before.enterCallGraph resolver input
  rw [Document.foldl_enterArtifact, Document.foldl_enterClasses, ← List.foldl_flatMap,
    Document.foldl_enterEdge] at finished
  exact finished

variable {resolver} in
/-- What a build that succeeds returns is coherent. -/
theorem coherent_ofAnalyses {analyses : List ArtifactAnalysis} {built : Logged Package}
    (success : ofAnalyses resolver analyses = .ok built) : built.value.Coherent := by
  obtain ⟨inputs, -, result⟩ := complete_of_ofAnalyses resolver success
  rw [result]
  exact (shows_assemble resolver inputs).coherent

end Package

/-! ## The calls of a build -/

/-- The call edges of those analyses that have a call graph. -/
def callEdges (analyses : List ArtifactAnalysis) : List CallEdge :=
  (analyses.filterMap ArtifactAnalysis.callGraph).flatMap CallGraph.edges

theorem callEdges_complete (inputs : List CompleteAnalysis) :
    callEdges (inputs.map CompleteAnalysis.analysis) = inputs.flatMap CompleteAnalysis.edges := by
  induction inputs with
  | nil => rfl
  | cons input rest ih =>
      rw [List.flatMap_cons, ← ih]
      rfl

/-- **The calls of a build are the image of its edges.**  Each edge has one entry, in the half
that its callee belongs to.  Neither half depends on the hierarchies, on the other edges or on
the caller's artifact. -/
theorem document_ofAnalyses {resolver : ArtifactResolver} {analyses : List ArtifactAnalysis}
    {built : Logged Package} (success : Package.ofAnalyses resolver analyses = .ok built) :
    built.value.document.artifacts = SortedSet.ofList (analyses.map ArtifactAnalysis.artifact) ∧
    built.value.document.resolvedCalls =
      SortedSet.ofList (resolver.callEntries true (callEdges analyses)) ∧
    built.value.document.unresolvedCalls =
      SortedSet.ofList (resolver.callEntries false (callEdges analyses)) := by
  obtain ⟨inputs, rfl, result⟩ := Package.complete_of_ofAnalyses resolver success
  have shown := (Package.shows_assemble resolver inputs).document
  rw [result, shown, callEdges_complete, List.map_map]
  exact ⟨rfl, rfl, rfl⟩

/-- Two graphs with one call in common, and a callee that no artifact ships. -/
theorem document_ofAnalyses_pair :
    let resolver : ArtifactResolver :=
      ⟨fun _ => none, fun method => if method.selector = "run()V" then some "g:a:1" else none⟩
    let run : MethodReference := ⟨⟨"La/A;", .application⟩, "run()V"⟩
    let print : MethodReference := ⟨⟨"java.io.Out", .primordial⟩, "print()V"⟩
    let first : CompleteAnalysis :=
      ⟨⟨"g", "a", "1"⟩, {}, ⟨[⟨print, run, .virtual⟩, ⟨run, print, .static⟩]⟩⟩
    let second : CompleteAnalysis := ⟨⟨"g", "b", "1"⟩, {}, ⟨[⟨print, run, .virtual⟩]⟩⟩
    ∃ built, Package.ofAnalyses resolver [first.analysis, second.analysis] = .ok built ∧
      built.value.document.artifacts.size = 2 ∧
      built.value.document.resolvedCalls = SortedSet.ofList
        [⟨⟨"java.io.Out", "print()V", none⟩, ⟨"a.A", "run()V", some "g:a:1"⟩, .virtual⟩] ∧
      built.value.document.unresolvedCalls = SortedSet.ofList
        [⟨⟨"a.A", "run()V", some "g:a:1"⟩, ⟨"java.io.Out", "print()V", none⟩, .static⟩] := by
  intro resolver run print first second
  obtain ⟨built, success, -⟩ := Package.ofAnalyses_complete resolver [first, second]
  obtain ⟨artifacts, resolved, unresolved⟩ := document_ofAnalyses success
  refine ⟨built, success, ?_, resolved.trans ?_, unresolved.trans ?_⟩
  · rw [artifacts]
    decide
  · decide
  · decide

end ProgramModel
