/-
# ProgramModel.Proofs.MissingInputs -- what stops a build, and what it has done by then

A build fails for one reason only: an analysis lacks its hierarchy or its call graph.  It looks
through all analyses before it enters anything, and the first one that `Lacks` an input stops it
with the error that names it (`ofAnalyses_eq_error_iff`).  The refusal of a hierarchy behind a call
graph is out of reach, since the phase stays what it was until the first call graph.

A result does not tell what was done on the way to it.  `Progress.run` writes a build out as the
steps that it takes, each on the builder and the log that the steps before have left, and keeps
both when it stops.  It ends as `ofAnalyses` does; when it fails, no step has been taken
(`Progress.run_of_error`).

A build that succeeds has left nothing out: each class has a record for its name, and each edge has
a call (`missingInputs_stop_build`).
-/
import ProgramModel.Proofs.Growth
import ProgramModel.Proofs.Repetition

namespace ProgramModel

set_option autoImplicit false

/-! ## What is missing -/

/-- What an analysis is refused with.  A hierarchy is missed before a call graph is. -/
inductive ArtifactAnalysis.Lacks (analysis : ArtifactAnalysis) : BuildError → Prop where
  | hierarchy (absent : analysis.hierarchy = none) :
      analysis.Lacks (.missingHierarchy analysis.artifact)
  | callGraph (present : analysis.hierarchy.isSome = true) (absent : analysis.callGraph = none) :
      analysis.Lacks (.missingCallGraph analysis.artifact)

/-- The first analysis that is not complete is refused with the error. -/
def FirstLack (analyses : List ArtifactAnalysis) (error : BuildError) : Prop :=
  ∃ earlier analysis later, analyses = earlier ++ analysis :: later ∧
    (∀ other ∈ earlier, other.IsComplete) ∧ analysis.Lacks error

variable {analysis : ArtifactAnalysis} {analyses : List ArtifactAnalysis} {error : BuildError}

/-- A hierarchy that comes too late is not what an analysis lacks. -/
theorem ArtifactAnalysis.Lacks.ne_hierarchyAfterCallGraph (lacks : analysis.Lacks error) :
    error ≠ .hierarchyAfterCallGraph := by
  cases lacks <;> exact BuildError.noConfusion

theorem ArtifactAnalysis.Lacks.absent (lacks : analysis.Lacks error) :
    analysis.hierarchy = none ∨ analysis.callGraph = none := by
  cases lacks with
  | hierarchy absent => exact .inl absent
  | callGraph _ absent => exact .inr absent

theorem ArtifactAnalysis.complete_eq_error_iff :
    analysis.complete = .error error ↔ analysis.Lacks error := by
  obtain ⟨artifact, hierarchy, callGraph⟩ := analysis
  constructor
  · intro refused
    cases hierarchy with
    | none =>
        cases refused
        exact .hierarchy rfl
    | some hierarchy =>
        cases callGraph with
        | none =>
            cases refused
            exact .callGraph rfl rfl
        | some callGraph => cases refused
  · intro lacks
    cases lacks with
    | hierarchy absent =>
        obtain rfl : hierarchy = none := absent
        rfl
    | callGraph present absent =>
        obtain ⟨hierarchy, rfl⟩ := Option.isSome_iff_exists.mp present
        obtain rfl : callGraph = none := absent
        rfl

/-- An analysis is complete, or it is refused. -/
theorem ArtifactAnalysis.isComplete_or_lacks (analysis : ArtifactAnalysis) :
    analysis.IsComplete ∨ ∃ error, analysis.Lacks error := by
  obtain ⟨artifact, hierarchy, callGraph⟩ := analysis
  cases hierarchy with
  | none => exact .inr ⟨_, .hierarchy rfl⟩
  | some hierarchy =>
      cases callGraph with
      | none => exact .inr ⟨_, .callGraph rfl rfl⟩
      | some callGraph => exact .inl ⟨rfl, rfl⟩

/-- The search for missing inputs stops at the first. -/
theorem FirstLack.mapM_complete (first : FirstLack analyses error) :
    analyses.mapM ArtifactAnalysis.complete = .error error := by
  obtain ⟨earlier, analysis, later, rfl, complete, lacks⟩ := first
  obtain ⟨inputs, rfl⟩ := exists_inputs complete
  rw [List.mapM_append, mapM_complete_analysis, List.mapM_cons,
    ArtifactAnalysis.complete_eq_error_iff.mpr lacks]
  rfl

/-- Some analysis is the first that is not complete, unless all are. -/
theorem forall_isComplete_or_firstLack (analyses : List ArtifactAnalysis) :
    (∀ analysis ∈ analyses, analysis.IsComplete) ∨ ∃ error, FirstLack analyses error := by
  induction analyses with
  | nil => exact .inl fun _ there => absurd there List.not_mem_nil
  | cons analysis rest ih =>
      rcases analysis.isComplete_or_lacks with complete | ⟨error, lacks⟩
      · rcases ih with others | ⟨error, earlier, first, later, rfl, before, lacks⟩
        · exact .inl (List.forall_mem_cons.mpr ⟨complete, others⟩)
        · exact .inr ⟨error, analysis :: earlier, first, later, rfl,
            List.forall_mem_cons.mpr ⟨complete, before⟩, lacks⟩
      · exact .inr ⟨error, [], analysis, rest, rfl, List.forall_mem_nil _, lacks⟩

theorem exists_firstLack_iff : (∃ error, FirstLack analyses error) ↔
    ∃ analysis ∈ analyses, analysis.hierarchy = none ∨ analysis.callGraph = none := by
  constructor
  · rintro ⟨error, earlier, analysis, later, rfl, -, lacks⟩
    exact ⟨analysis, List.mem_append_right _ List.mem_cons_self, lacks.absent⟩
  · rintro ⟨analysis, there, absent⟩
    rcases forall_isComplete_or_firstLack analyses with complete | first
    · obtain ⟨classified, called⟩ := complete analysis there
      rcases absent with absent | absent
      · simp [absent] at classified
      · simp [absent] at called
    · exact first

namespace Package

variable {resolver : ArtifactResolver}

/-- **A build fails with what the first analysis that is not complete is refused with.** -/
theorem ofAnalyses_eq_error_iff :
    ofAnalyses resolver analyses = .error error ↔ FirstLack analyses error := by
  have stops {error : BuildError} (first : FirstLack analyses error) :
      ofAnalyses resolver analyses = .error error := by
    unfold ofAnalyses
    rw [first.mapM_complete]
    rfl
  refine ⟨fun failure => ?_, stops⟩
  rcases forall_isComplete_or_firstLack analyses with complete | ⟨other, first⟩
  · obtain ⟨inputs, rfl⟩ := exists_inputs complete
    obtain ⟨built, success, -⟩ := ofAnalyses_complete resolver inputs
    rw [success] at failure
    cases failure
  · obtain rfl : other = error := Except.error.inj ((stops first).symm.trans failure)
    exact first

end Package

/-! ## What has been done -/

/-- A build under way: its builder, and what it has reported. -/
structure Progress where
  builder : PackageBuilder
  log : List Event := []

namespace Progress

/-- The build has come to the builder, and has reported further events. -/
def after (progress : Progress) (builder : PackageBuilder) (events : List Event) : Progress :=
  ⟨builder, progress.log ++ events⟩

/-- The build has announced what it does next. -/
def announce (progress : Progress) (event : Event) : Progress :=
  progress.after progress.builder [event]

/-- Enter the hierarchies of inputs, up to the first that is refused. -/
def enterHierarchies (progress : Progress) :
    List CompleteAnalysis → Progress × Except BuildError Unit
  | [] => (progress, .ok ())
  | input :: rest =>
      let announced := progress.announce (.hierarchyStarted input.artifact)
      match announced.builder.insertHierarchy input.hierarchy with
      | .error refusal => (announced, .error refusal)
      | .ok step => (announced.after step.value.1 step.log).enterHierarchies rest

/-- A build step by step, with what it has done when it stops. -/
def run (resolver : ArtifactResolver) (analyses : List ArtifactAnalysis) :
    Progress × Except BuildError Package :=
  let fresh : Progress := { builder := { resolver } }
  match analyses.mapM ArtifactAnalysis.complete with
  | .error missing => (fresh, .error missing)
  | .ok inputs =>
      let started := fresh.builder.setArtifacts (analyses.map ArtifactAnalysis.artifact)
      match (fresh.after started.value started.log).enterHierarchies inputs with
      | (stopped, .error refusal) => (stopped, .error refusal)
      | (classified, .ok ()) =>
          let called := classified.builder.insertCallGraphs inputs
          let package := called.value.package
          ((classified.after called.value called.log).announce package.summaryEvent, .ok package)

theorem enterHierarchies_cons {progress : Progress} {input : CompleteAnalysis}
    {step : Logged (PackageBuilder × Nat)}
    (inserts : progress.builder.insertHierarchy input.hierarchy = .ok step)
    (rest : List CompleteAnalysis) : progress.enterHierarchies (input :: rest) =
      (progress.after step.value.1
        (.hierarchyStarted input.artifact :: step.log)).enterHierarchies rest := by
  rw [enterHierarchies]
  simp only [announce, after, inserts, List.append_assoc, List.singleton_append]

/-- Before the first call graph all hierarchies are entered, with what entering them reports. -/
theorem enterHierarchies_eq_ok {progress : Progress}
    (open_ : progress.builder.phase = .hierarchies) (inputs : List CompleteAnalysis) :
    ∃ done, progress.builder.insertHierarchies inputs = .ok done ∧
      progress.enterHierarchies inputs = (progress.after done.value done.log, .ok ()) := by
  induction inputs generalizing progress with
  | nil =>
      refine ⟨pure progress.builder, rfl, ?_⟩
      simp [enterHierarchies, after]
  | cons input rest ih =>
      obtain ⟨step, inserts, next⟩ := PackageBuilder.insertHierarchy_eq_ok open_ input
      let entered := progress.after step.value.1 (.hierarchyStarted input.artifact :: step.log)
      have stays : entered.builder.phase = .hierarchies :=
        (congrArg PackageBuilder.phase next).trans open_
      obtain ⟨done, finishes, goes⟩ := ih stays
      have others : step.value.1.insertHierarchies rest = .ok done := finishes
      rw [PackageBuilder.insertHierarchies, inserts, enterHierarchies_cons inserts, goes]
      simp only [bind, Except.bind, others]
      refine ⟨_, rfl, ?_⟩
      simp [entered, after, Logged.report]

variable (resolver : ArtifactResolver)

/-- **A build that fails has entered nothing and reported nothing.** -/
theorem run_of_error (failure : Package.ofAnalyses resolver analyses = .error error) :
    run resolver analyses = ({ builder := { resolver } }, .error error) := by
  unfold run
  rw [(Package.ofAnalyses_eq_error_iff.mp failure).mapM_complete]

/-- A build that succeeds ends in its package, and has reported what belongs to it. -/
theorem run_of_ok {built : Logged Package}
    (success : Package.ofAnalyses resolver analyses = .ok built) :
    ∃ builder, run resolver analyses = (⟨builder, built.log⟩, .ok built.value) ∧
      builder.package = built.value := by
  obtain ⟨inputs, rfl, -⟩ := Package.complete_of_ofAnalyses resolver success
  let fresh : Progress := { builder := { resolver } }
  let artifacts := (inputs.map CompleteAnalysis.analysis).map ArtifactAnalysis.artifact
  let started := fresh.builder.setArtifacts artifacts
  have open_ : (fresh.after started.value started.log).builder.phase = .hierarchies := by
    show (fresh.builder.setArtifacts artifacts).value.phase = _
    rw [PackageBuilder.value_setArtifacts]
  obtain ⟨classified, inserts, goes⟩ := enterHierarchies_eq_ok open_ inputs
  have inserts : started.value.insertHierarchies inputs = .ok classified := inserts
  unfold Package.ofAnalyses at success
  rw [mapM_complete_analysis] at success
  simp only [bind, Except.bind] at success
  rw [inserts] at success
  cases success
  unfold run
  rw [mapM_complete_analysis]
  simp only
  rw [goes]
  refine ⟨(classified.value.insertCallGraphs inputs).value, ?_, rfl⟩
  simp [after, announce, Logged.report, fresh, started, artifacts]

end Progress

/-! ## What is there in the end -/

/-- What a build does with its inputs, one operation after the other. -/
def Package.operations (resolver : ArtifactResolver) (inputs : List CompleteAnalysis) :
    List Operation :=
  inputs.map (fun input => .addArtifact input.artifact) ++
    inputs.map (fun input => .insertHierarchy resolver input.hierarchy) ++
    inputs.map (fun input => .insertCallGraph resolver input.callGraph)

theorem Ledger.package_foldl_apply (operation : CompleteAnalysis → Operation)
    (step : Package → CompleteAnalysis → Package)
    (does : ∀ (ledger : Ledger) input, (ledger.apply (operation input)).package =
      step ledger.package input) (ledger : Ledger) (inputs : List CompleteAnalysis) :
    ((inputs.map operation).foldl apply ledger).package = inputs.foldl step ledger.package := by
  induction inputs generalizing ledger with
  | nil => rfl
  | cons input rest ih => rw [List.map_cons, List.foldl_cons, List.foldl_cons, ih, does]

namespace Package

variable (resolver : ArtifactResolver) (inputs : List CompleteAnalysis)

/-- **A build is a run of operations.** -/
theorem assemble_eq_run :
    assemble resolver inputs = (Ledger.run (operations resolver inputs)).package := by
  rw [Ledger.run, operations, List.foldl_append, List.foldl_append,
    Ledger.package_foldl_apply _ (enterCallGraph resolver) fun _ _ => rfl,
    Ledger.package_foldl_apply _ (enterHierarchy resolver) fun _ _ => rfl,
    Ledger.package_foldl_apply _ enterArtifact fun _ _ => rfl]
  rfl

variable {inputs}

theorem covers_assemble {input : CompleteAnalysis} (listed : input ∈ inputs) :
    (assemble resolver inputs).Covers input.hierarchy.classes := by
  have done : .insertHierarchy resolver input.hierarchy ∈ operations resolver inputs := by
    simp only [operations, List.mem_append, List.mem_map]
    exact .inl (.inr ⟨input, listed, rfl⟩)
  obtain ⟨before, grown, -⟩ := Ledger.run_grows_of_mem done
  rw [assemble_eq_run]
  exact (covers_insertClasses resolver input.hierarchy before.package _).of_extends grown

theorem carriesAll_assemble {input : CompleteAnalysis} (listed : input ∈ inputs) :
    (assemble resolver inputs).CarriesAll resolver input.callGraph.edges := by
  have done : .insertCallGraph resolver input.callGraph ∈ operations resolver inputs := by
    simp only [operations, List.mem_append, List.mem_map]
    exact .inr ⟨input, listed, rfl⟩
  obtain ⟨before, grown, keeps⟩ := Ledger.run_grows_of_mem done
  obtain ⟨left, -⟩ := calls_insertEdges resolver before.package input.callGraph.edges
  rw [assemble_eq_run]
  exact CarriesAll.of_keeps left grown keeps

end Package

/-- **Missing inputs stop a build before it begins, and nothing else does.**  A build fails exactly
when an analysis lacks its hierarchy or its call graph.  The error is the one that the first such
analysis is refused with, so never that a hierarchy comes too late; and when it is returned, the
builder is the fresh one and nothing has been reported.  A build that succeeds ends where its steps
lead, and leaves no analysis out: all classes have a record, and all edges a call. -/
theorem missingInputs_stop_build (resolver : ArtifactResolver)
    (analyses : List ArtifactAnalysis) :
    let outcome := Package.ofAnalyses resolver analyses
    ((∃ error, outcome = .error error) ↔
      ∃ analysis ∈ analyses, analysis.hierarchy = none ∨ analysis.callGraph = none) ∧
    (∀ error, outcome = .error error ↔ FirstLack analyses error) ∧
    (∀ error, outcome = .error error → error ≠ .hierarchyAfterCallGraph ∧
      Progress.run resolver analyses = ({ builder := { resolver } }, .error error)) ∧
    (∀ built, outcome = .ok built →
      (∃ builder, Progress.run resolver analyses = (⟨builder, built.log⟩, .ok built.value) ∧
        builder.package = built.value) ∧
      ∀ analysis ∈ analyses, ∃ hierarchy callGraph,
        analysis.hierarchy = some hierarchy ∧ analysis.callGraph = some callGraph ∧
        built.value.Covers hierarchy.classes ∧
        built.value.CarriesAll resolver callGraph.edges) := by
  intro outcome
  refine ⟨?_, fun error => Package.ofAnalyses_eq_error_iff, ?_, ?_⟩
  · rw [← exists_firstLack_iff]
    exact exists_congr fun error => Package.ofAnalyses_eq_error_iff
  · intro error failure
    obtain ⟨_, _, _, -, -, lacks⟩ := Package.ofAnalyses_eq_error_iff.mp failure
    exact ⟨lacks.ne_hierarchyAfterCallGraph, Progress.run_of_error resolver failure⟩
  · intro built success
    refine ⟨Progress.run_of_ok resolver success, ?_⟩
    obtain ⟨inputs, rfl, result⟩ := Package.complete_of_ofAnalyses resolver success
    intro analysis there
    obtain ⟨input, listed, rfl⟩ := List.mem_map.mp there
    rw [result]
    exact ⟨_, _, rfl, rfl, Package.covers_assemble resolver listed,
      Package.carriesAll_assemble resolver listed⟩

/-- An artifact with one class, whose method calls itself. -/
def recursiveInput : CompleteAnalysis :=
  let method : MethodReference := ⟨⟨"a.A", .application⟩, "run()V"⟩
  { artifact := ⟨"g", "a", "1"⟩
    hierarchy :=
      ⟨[{ reference := method.declaringClass, methods := [{ selector := method.selector }] }]⟩
    callGraph := ⟨[⟨method, method, .virtual⟩]⟩ }

/-- An analysis with neither of its halves, and behind it one with only the first. -/
def incompleteAnalyses : List ArtifactAnalysis :=
  [{ artifact := ⟨"g", "b", "1"⟩ }, { artifact := ⟨"g", "c", "1"⟩, hierarchy := some {} }]

/-- The first of the two is refused for its hierarchy, and the complete analysis in front of them
has not been entered; alone it is. -/
theorem missingInputs_stop_build_early :
    (let analyses := recursiveInput.analysis :: incompleteAnalyses
     let missing := BuildError.missingHierarchy ⟨"g", "b", "1"⟩
     Package.ofAnalyses .unknowing analyses = .error missing ∧
      Progress.run .unknowing analyses =
        ({ builder := { resolver := .unknowing } }, .error missing)) ∧
    ∃ built, Package.ofAnalyses .unknowing [recursiveInput.analysis] = .ok built ∧
      built.value.Covers recursiveInput.hierarchy.classes ∧
      built.value.CarriesAll .unknowing recursiveInput.callGraph.edges := by
  constructor
  · obtain ⟨-, exactly, stopped, -⟩ :=
      missingInputs_stop_build .unknowing (recursiveInput.analysis :: incompleteAnalyses)
    have failure := (exactly (.missingHierarchy ⟨"g", "b", "1"⟩)).mpr
      ⟨[recursiveInput.analysis], { artifact := ⟨"g", "b", "1"⟩ }, incompleteAnalyses.tail, rfl,
        List.forall_mem_singleton.mpr ⟨rfl, rfl⟩, .hierarchy rfl⟩
    exact ⟨failure, (stopped _ failure).2⟩
  · obtain ⟨-, -, -, succeeds⟩ := missingInputs_stop_build .unknowing [recursiveInput.analysis]
    obtain ⟨built, success, -⟩ := Package.ofAnalyses_complete .unknowing [recursiveInput]
    obtain ⟨-, each⟩ := succeeds built success
    obtain ⟨hierarchy, callGraph, classified, called, covers, carries⟩ :=
      each _ List.mem_cons_self
    cases classified
    cases called
    exact ⟨built, success, covers, carries⟩

end ProgramModel
