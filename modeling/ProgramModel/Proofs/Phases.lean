/-
# ProgramModel.Proofs.Phases -- steps of a build in any order, and the order they amount to

A builder can be called in any order: artifacts may come late and in batches, and a hierarchy
that comes after a call graph is refused.  Whatever was called, the builder is the one that has
been given all artifacts first, then the hierarchies that it accepted, then the call graphs.

The reason is that artifacts are kept apart from all else.  Entering one commutes with a class,
with a hierarchy, with an edge and with a call graph (`insertHierarchy_addArtifact`,
`insertCallGraph_addArtifact`), so it may be moved to the front.  `arranged` is the builder that
the three lists lead to in that order.  Each step leads from such a builder to such a builder
(`perform_cases`), and so does any list of steps (`foldl_after`).
-/
import ProgramModel.Proofs.Builds

namespace ProgramModel

set_option autoImplicit false

/-! ## Artifacts are kept apart -/

namespace Package

variable (resolver : ArtifactResolver) (package : Package) (artifact : ArtifactRecord)

theorem insertClass_addArtifact (hierarchy : ClassHierarchy) (node : ClassNode) :
    ((package.addArtifact artifact).insertClass resolver hierarchy node).value =
      let done := (package.insertClass resolver hierarchy node).value
      (done.1.addArtifact artifact, done.2) := by
  have same : (package.addArtifact artifact).classRecord? node.qualifiedName =
      package.classRecord? node.qualifiedName := rfl
  unfold insertClass
  rw [same]
  split <;> rfl

theorem insertClasses_addArtifact (hierarchy : ClassHierarchy) (nodes : List ClassNode) :
    ((package.addArtifact artifact).insertClasses resolver hierarchy nodes).value =
      let done := (package.insertClasses resolver hierarchy nodes).value
      (done.1.addArtifact artifact, done.2) := by
  induction nodes generalizing package with
  | nil => rfl
  | cons node rest ih =>
      have step := insertClass_addArtifact resolver package artifact hierarchy node
      rw [value_insertClasses_cons, value_insertClasses_cons, step]
      simp only [ih]

/-- **A hierarchy and an artifact may be entered in either order.** -/
theorem insertHierarchy_addArtifact (hierarchy : ClassHierarchy) :
    ((package.addArtifact artifact).insertHierarchy resolver hierarchy).value.1 =
      (package.insertHierarchy resolver hierarchy).value.1.addArtifact artifact :=
  congrArg Prod.fst
    (insertClasses_addArtifact resolver package artifact hierarchy hierarchy.classes)

theorem addCall_addArtifact (call : Call) :
    (package.addArtifact artifact).addCall call = (package.addCall call).addArtifact artifact := by
  have same : (package.addArtifact artifact).isResolved call.target =
      package.isResolved call.target := rfl
  unfold addCall
  rw [same]
  split <;> rfl

theorem insertEdge_addArtifact (edge : CallEdge) :
    (package.addArtifact artifact).insertEdge resolver edge =
      let done := package.insertEdge resolver edge
      (done.1.addArtifact artifact, done.2) := by
  let first := resolver.resolve package.methods edge.caller
  let second := resolver.resolve first.2 edge.callee
  have call := addCall_addArtifact { package with methods := second.2 } artifact
    ⟨first.1, second.1, edge.dispatch.callType⟩
  exact Prod.ext call rfl

theorem insertEdges_addArtifact (edges : List CallEdge) :
    (package.addArtifact artifact).insertEdges resolver edges =
      let done := package.insertEdges resolver edges
      (done.1.addArtifact artifact, done.2) := by
  induction edges generalizing package with
  | nil => rfl
  | cons edge rest ih =>
      have step := insertEdge_addArtifact resolver package artifact edge
      rw [insertEdges_cons, insertEdges_cons, step]
      simp only [ih]

/-- **A call graph and an artifact may be entered in either order.** -/
theorem insertCallGraph_addArtifact (graph : CallGraph) :
    ((package.addArtifact artifact).insertCallGraph resolver graph).value.1 =
      (package.insertCallGraph resolver graph).value.1.addArtifact artifact :=
  congrArg Prod.fst (insertEdges_addArtifact resolver package artifact graph.edges)

/-! ## The order of a build -/

/-- The package with hierarchies, one after the other. -/
def enterHierarchies (hierarchies : List ClassHierarchy) : Package :=
  hierarchies.foldl
    (fun package hierarchy => (package.insertHierarchy resolver hierarchy).value.1) package

/-- The package with call graphs, one after the other. -/
def enterCallGraphs (graphs : List CallGraph) : Package :=
  graphs.foldl (fun package graph => (package.insertCallGraph resolver graph).value.1) package

theorem enterHierarchies_addArtifact (hierarchies : List ClassHierarchy) :
    (package.addArtifact artifact).enterHierarchies resolver hierarchies =
      (package.enterHierarchies resolver hierarchies).addArtifact artifact := by
  induction hierarchies generalizing package with
  | nil => rfl
  | cons hierarchy rest ih =>
      have step := insertHierarchy_addArtifact resolver package artifact hierarchy
      rw [enterHierarchies, List.foldl_cons, step]
      exact ih _

theorem enterCallGraphs_addArtifact (graphs : List CallGraph) :
    (package.addArtifact artifact).enterCallGraphs resolver graphs =
      (package.enterCallGraphs resolver graphs).addArtifact artifact := by
  induction graphs generalizing package with
  | nil => rfl
  | cons graph rest ih =>
      have step := insertCallGraph_addArtifact resolver package artifact graph
      rw [enterCallGraphs, List.foldl_cons, step]
      exact ih _

/-- What artifacts, hierarchies and call graphs add up to when they are entered in that order. -/
def arrange (artifacts : List ArtifactRecord) (hierarchies : List ClassHierarchy)
    (graphs : List CallGraph) : Package :=
  ((artifacts.foldl addArtifact {}).enterHierarchies resolver hierarchies).enterCallGraphs resolver
    graphs

variable (artifacts : List ArtifactRecord) (hierarchies : List ClassHierarchy)
  (graphs : List CallGraph)

/-- **An artifact that comes last might have come before the hierarchies.** -/
theorem addArtifact_arrange :
    (arrange resolver artifacts hierarchies graphs).addArtifact artifact =
      arrange resolver (artifacts ++ [artifact]) hierarchies graphs := by
  unfold arrange
  rw [← enterCallGraphs_addArtifact, ← enterHierarchies_addArtifact, List.foldl_append]
  rfl

theorem foldl_addArtifact_arrange (late : List ArtifactRecord) :
    late.foldl addArtifact (arrange resolver artifacts hierarchies graphs) =
      arrange resolver (artifacts ++ late) hierarchies graphs := by
  induction late generalizing artifacts with
  | nil => rw [List.append_nil, List.foldl_nil]
  | cons artifact late ih =>
      rw [List.foldl_cons, addArtifact_arrange, ih, List.append_assoc, List.singleton_append]

theorem foldl_addArtifact (package : Package) (artifacts : List ArtifactRecord) :
    artifacts.foldl addArtifact package =
      { package with artifacts := artifacts.foldl SortedSet.insert package.artifacts } := by
  induction artifacts generalizing package with
  | nil => rfl
  | cons artifact rest ih => exact ih _

/-- Of artifacts, only which they are matters. -/
theorem arrange_congr {other : List ArtifactRecord}
    (same : ∀ artifact, artifact ∈ other ↔ artifact ∈ artifacts) :
    arrange resolver other hierarchies graphs = arrange resolver artifacts hierarchies graphs := by
  have sets : SortedSet.ofList other = SortedSet.ofList artifacts := by
    refine SortedSet.ext fun artifact => ?_
    rw [SortedSet.mem_ofList, SortedSet.mem_ofList, same]
  have started : other.foldl addArtifact {} = artifacts.foldl addArtifact {} := by
    rw [foldl_addArtifact, foldl_addArtifact]
    exact congrArg (fun set => ({ artifacts := set } : Package)) sets
  unfold arrange
  rw [started]

end Package

/-! ## Steps -/

/-- What can be asked of a builder. -/
inductive BuildStep where
  | setArtifacts (artifacts : List ArtifactRecord)
  | insertHierarchy (hierarchy : ClassHierarchy)
  | insertCallGraph (graph : CallGraph)

namespace BuildStep

/-- The artifacts that the step is about. -/
def artifacts : BuildStep → List ArtifactRecord
  | .setArtifacts artifacts => artifacts
  | _ => []

/-- The hierarchies that the step is about. -/
def hierarchies : BuildStep → List ClassHierarchy
  | .insertHierarchy hierarchy => [hierarchy]
  | _ => []

/-- The call graphs that the step is about. -/
def graphs : BuildStep → List CallGraph
  | .insertCallGraph graph => [graph]
  | _ => []

theorem mem_graphs {step : BuildStep} {graph : CallGraph} :
    graph ∈ step.graphs ↔ step = .insertCallGraph graph := by
  cases step <;> simp [graphs, eq_comm]

end BuildStep

namespace PackageBuilder

/-- What the builder answers to a step. -/
def perform (builder : PackageBuilder) : BuildStep → Except BuildError (Logged PackageBuilder)
  | .setArtifacts artifacts => .ok (builder.setArtifacts artifacts)
  | .insertHierarchy hierarchy => (builder.insertHierarchy hierarchy).map (Prod.fst <$> ·)
  | .insertCallGraph graph => .ok (Prod.fst <$> builder.insertCallGraph graph)

/-- The builder after a step; a step that fails leaves it as it was. -/
def after (builder : PackageBuilder) (step : BuildStep) : PackageBuilder :=
  match builder.perform step with
  | .ok done => done.value
  | .error _ => builder

/-- The builder after steps, from its start. -/
def run (resolver : ArtifactResolver) (steps : List BuildStep) : PackageBuilder :=
  steps.foldl after { resolver }

/-- The hierarchies of the steps that do not fail. -/
def accepted (builder : PackageBuilder) : List BuildStep → List ClassHierarchy
  | [] => []
  | step :: rest =>
      (if (builder.perform step).isOk then step.hierarchies else []) ++
        (builder.after step).accepted rest

/-- The builder that has been given artifacts, hierarchies and call graphs in that order. -/
def arranged (resolver : ArtifactResolver) (artifacts : List ArtifactRecord)
    (hierarchies : List ClassHierarchy) (graphs : List CallGraph) : PackageBuilder where
  resolver := resolver
  package := Package.arrange resolver artifacts hierarchies graphs
  phase := if graphs.isEmpty then .hierarchies else .callGraphs

variable (resolver : ArtifactResolver) (artifacts : List ArtifactRecord)
  (hierarchies : List ClassHierarchy) (graphs : List CallGraph)

/-! ## What one step leads to -/

/-- Artifacts are accepted whenever they come. -/
theorem perform_setArtifacts (late : List ArtifactRecord) :
    ∃ done, (arranged resolver artifacts hierarchies graphs).perform (.setArtifacts late) =
      .ok done ∧ done.value = arranged resolver (artifacts ++ late) hierarchies graphs := by
  refine ⟨_, rfl, ?_⟩
  have last := Package.foldl_addArtifact_arrange resolver artifacts hierarchies graphs late
  rw [value_setArtifacts]
  unfold arranged
  rw [last]

/-- A hierarchy is accepted before the first call graph. -/
theorem perform_insertHierarchy (hierarchy : ClassHierarchy) :
    ∃ done, (arranged resolver artifacts hierarchies []).perform (.insertHierarchy hierarchy) =
      .ok done ∧ done.value = arranged resolver artifacts (hierarchies ++ [hierarchy]) [] := by
  refine ⟨_, rfl, ?_⟩
  have last : Package.arrange resolver artifacts (hierarchies ++ [hierarchy]) [] =
      ((Package.arrange resolver artifacts hierarchies []).insertHierarchy resolver
        hierarchy).value.1 := by
    simp only [Package.arrange, Package.enterHierarchies, Package.enterCallGraphs,
      List.foldl_append, List.foldl_cons, List.foldl_nil]
  unfold arranged
  rw [last]
  rfl

/-- A call graph is accepted whenever it comes. -/
theorem perform_insertCallGraph (graph : CallGraph) :
    ∃ done, (arranged resolver artifacts hierarchies graphs).perform (.insertCallGraph graph) =
      .ok done ∧ done.value = arranged resolver artifacts hierarchies (graphs ++ [graph]) := by
  refine ⟨_, rfl, ?_⟩
  have last : Package.arrange resolver artifacts hierarchies (graphs ++ [graph]) =
      ((Package.arrange resolver artifacts hierarchies graphs).insertCallGraph resolver
        graph).value.1 := by
    simp only [Package.arrange, Package.enterCallGraphs, List.foldl_append, List.foldl_cons,
      List.foldl_nil]
  have ended : (graphs ++ [graph]).isEmpty = false := by simp
  unfold arranged
  rw [last, ended]
  rfl

/-- **All that a step can do**: it is added to what there is, or it is a hierarchy that comes
after a call graph. -/
theorem perform_cases (step : BuildStep) :
    (∃ done, (arranged resolver artifacts hierarchies graphs).perform step = .ok done ∧
      done.value = arranged resolver (artifacts ++ step.artifacts)
        (hierarchies ++ step.hierarchies) (graphs ++ step.graphs)) ∨
    (graphs ≠ [] ∧ (∃ hierarchy, step = .insertHierarchy hierarchy) ∧
      (arranged resolver artifacts hierarchies graphs).perform step =
        .error .hierarchyAfterCallGraph) := by
  cases step with
  | setArtifacts late =>
      have entered := perform_setArtifacts resolver artifacts hierarchies graphs late
      exact .inl (by simpa [BuildStep.artifacts, BuildStep.hierarchies, BuildStep.graphs])
  | insertCallGraph graph =>
      have entered := perform_insertCallGraph resolver artifacts hierarchies graphs graph
      exact .inl (by simpa [BuildStep.artifacts, BuildStep.hierarchies, BuildStep.graphs])
  | insertHierarchy hierarchy =>
      cases graphs with
      | nil =>
          have entered := perform_insertHierarchy resolver artifacts hierarchies hierarchy
          exact .inl (by simpa [BuildStep.artifacts, BuildStep.hierarchies, BuildStep.graphs])
      | cons graph earlier => exact .inr ⟨List.cons_ne_nil _ _, ⟨hierarchy, rfl⟩, rfl⟩

theorem perform_insertHierarchy_eq_error (hierarchy : ClassHierarchy) :
    (arranged resolver artifacts hierarchies graphs).perform (.insertHierarchy hierarchy) =
      .error .hierarchyAfterCallGraph ↔ ∃ graph, graph ∈ graphs := by
  cases graphs with
  | nil =>
      obtain ⟨done, goes, -⟩ := perform_insertHierarchy resolver artifacts hierarchies hierarchy
      rw [goes]
      simp
  | cons graph earlier => exact iff_of_true rfl ⟨graph, List.mem_cons_self⟩

/-! ## What a list of steps leads to -/

theorem after_of_ok {builder : PackageBuilder} {step : BuildStep} {done : Logged PackageBuilder}
    (goes : builder.perform step = .ok done) : builder.after step = done.value := by
  rw [after, goes]

theorem after_of_error {builder : PackageBuilder} {step : BuildStep} {fault : BuildError}
    (fails : builder.perform step = .error fault) : builder.after step = builder := by
  rw [after, fails]

theorem accepted_of_ok {builder : PackageBuilder} {step : BuildStep} {done : Logged PackageBuilder}
    (goes : builder.perform step = .ok done) (rest : List BuildStep) :
    builder.accepted (step :: rest) = step.hierarchies ++ done.value.accepted rest := by
  rw [accepted, after_of_ok goes, goes]
  rfl

theorem accepted_of_error {builder : PackageBuilder} {step : BuildStep} {fault : BuildError}
    (fails : builder.perform step = .error fault) (rest : List BuildStep) :
    builder.accepted (step :: rest) = builder.accepted rest := by
  rw [accepted, after_of_error fails, fails]
  rfl

/-- **Steps lead from an arranged builder to an arranged builder.** -/
theorem foldl_after (steps : List BuildStep) :
    steps.foldl after (arranged resolver artifacts hierarchies graphs) =
      arranged resolver (artifacts ++ steps.flatMap BuildStep.artifacts)
        (hierarchies ++ (arranged resolver artifacts hierarchies graphs).accepted steps)
        (graphs ++ steps.flatMap BuildStep.graphs) := by
  induction steps generalizing artifacts hierarchies graphs with
  | nil => simp only [List.foldl_nil, List.flatMap_nil, accepted, List.append_nil]
  | cons step rest ih =>
      rw [List.foldl_cons, List.flatMap_cons, List.flatMap_cons, ← List.append_assoc,
        ← List.append_assoc]
      rcases perform_cases resolver artifacts hierarchies graphs step with
        ⟨done, goes, next⟩ | ⟨-, ⟨hierarchy, rfl⟩, fails⟩
      · rw [accepted_of_ok goes, after_of_ok goes, next, ih, ← List.append_assoc]
      · -- A refused hierarchy adds to none of the three lists.
        rw [accepted_of_error fails, after_of_error fails, ih]
        simp only [BuildStep.artifacts, BuildStep.graphs, List.append_nil]

theorem run_eq_arranged (steps : List BuildStep) :
    run resolver steps = arranged resolver (steps.flatMap BuildStep.artifacts)
      (accepted { resolver } steps) (steps.flatMap BuildStep.graphs) :=
  foldl_after resolver [] [] [] steps

/-! ## The order that steps amount to -/

/-- All artifacts at once, then hierarchies, then call graphs. -/
def schedule (artifacts : List ArtifactRecord) (hierarchies : List ClassHierarchy)
    (graphs : List CallGraph) : List BuildStep :=
  .setArtifacts artifacts :: hierarchies.map .insertHierarchy ++ graphs.map .insertCallGraph

theorem foldl_insertHierarchy (further : List ClassHierarchy) :
    (further.map .insertHierarchy).foldl after (arranged resolver artifacts hierarchies []) =
      arranged resolver artifacts (hierarchies ++ further) [] := by
  induction further generalizing hierarchies with
  | nil => rw [List.append_nil]; rfl
  | cons hierarchy rest ih =>
      obtain ⟨done, goes, next⟩ := perform_insertHierarchy resolver artifacts hierarchies hierarchy
      rw [List.map_cons, List.foldl_cons, after_of_ok goes, next, ih, List.append_assoc,
        List.singleton_append]

theorem foldl_insertCallGraph (further : List CallGraph) :
    (further.map .insertCallGraph).foldl after (arranged resolver artifacts hierarchies graphs) =
      arranged resolver artifacts hierarchies (graphs ++ further) := by
  induction further generalizing graphs with
  | nil => rw [List.append_nil]; rfl
  | cons graph rest ih =>
      obtain ⟨done, goes, next⟩ :=
        perform_insertCallGraph resolver artifacts hierarchies graphs graph
      rw [List.map_cons, List.foldl_cons, after_of_ok goes, next, ih, List.append_assoc,
        List.singleton_append]

theorem run_schedule :
    run resolver (schedule artifacts hierarchies graphs) =
      arranged resolver artifacts hierarchies graphs := by
  obtain ⟨done, goes, next⟩ := perform_setArtifacts resolver [] [] [] artifacts
  have started : after { resolver } (.setArtifacts artifacts) = arranged resolver artifacts [] [] :=
    (after_of_ok goes).trans next
  unfold run schedule
  rw [List.cons_append, List.foldl_cons, started, List.foldl_append, foldl_insertHierarchy,
    foldl_insertCallGraph, List.nil_append, List.nil_append]

end PackageBuilder

open PackageBuilder (run accepted schedule)

/-- **A build in any order amounts to a build in phases.**  After any steps, a hierarchy is refused
exactly when one of them has entered a call graph, and a step that fails leaves everything as it
was.  The builder is the one that has been given all artifacts at once, then the hierarchies that
were accepted, then the call graphs.  So neither the place nor the number of the steps that enter
artifacts matters, and no refused hierarchy does. -/
theorem run_inPhases (resolver : ArtifactResolver) (steps : List BuildStep) :
    let builder := run resolver steps
    let artifacts := steps.flatMap BuildStep.artifacts
    let graphs := steps.flatMap BuildStep.graphs
    (∀ hierarchy, builder.perform (.insertHierarchy hierarchy) = .error .hierarchyAfterCallGraph ↔
      ∃ graph, .insertCallGraph graph ∈ steps) ∧
    (∀ step fault, builder.perform step = .error fault →
      fault = .hierarchyAfterCallGraph ∧ run resolver (steps ++ [step]) = builder) ∧
    builder = run resolver (schedule artifacts (accepted { resolver } steps) graphs) ∧
    (∀ other : List BuildStep,
      (∀ artifact, artifact ∈ other.flatMap BuildStep.artifacts ↔ artifact ∈ artifacts) →
      accepted { resolver } other = accepted { resolver } steps →
      other.flatMap BuildStep.graphs = graphs → run resolver other = builder) := by
  intro builder artifacts graphs
  have amounts : builder =
      PackageBuilder.arranged resolver artifacts (accepted { resolver } steps) graphs :=
    PackageBuilder.run_eq_arranged resolver steps
  refine ⟨?_, ?_, ?_, ?_⟩
  · intro hierarchy
    rw [amounts, PackageBuilder.perform_insertHierarchy_eq_error]
    simp only [graphs, List.mem_flatMap, BuildStep.mem_graphs, exists_eq_right]
  · intro step fault fails
    have stays : run resolver (steps ++ [step]) = builder := by
      rw [run, List.foldl_append]
      exact PackageBuilder.after_of_error fails
    rw [amounts] at fails
    rcases PackageBuilder.perform_cases resolver artifacts _ graphs step with
      ⟨done, goes, -⟩ | ⟨-, -, late⟩
    · rw [goes] at fails
      cases fails
    · rw [late] at fails
      cases fails
      exact ⟨rfl, stays⟩
  · rw [PackageBuilder.run_schedule]
    exact amounts
  · intro other sameArtifacts sameHierarchies sameGraphs
    rw [PackageBuilder.run_eq_arranged, sameHierarchies, sameGraphs, amounts]
    unfold PackageBuilder.arranged
    rw [Package.arrange_congr resolver _ _ _ sameArtifacts]

/-- Artifacts early and late, and a hierarchy behind an empty call graph. -/
def scatteredSteps : List BuildStep :=
  [.setArtifacts [⟨"g", "b", "1"⟩],
    .insertHierarchy Package.mutualSuperclasses,
    .insertCallGraph {},
    .insertHierarchy { classes := [{ reference := ⟨"c.C", .application⟩ }] },
    .setArtifacts [⟨"g", "a", "1"⟩, ⟨"g", "b", "1"⟩]]

/-- The same build without the refused hierarchy, the artifacts at once. -/
def orderlySteps : List BuildStep :=
  [.setArtifacts [⟨"g", "a", "1"⟩, ⟨"g", "b", "1"⟩],
    .insertHierarchy Package.mutualSuperclasses,
    .insertCallGraph {}]

/-- Both lead to one builder, and to one that accepts no further hierarchy. -/
theorem run_inPhases_scattered :
    let resolver := ArtifactResolver.unknowing
    run resolver scatteredSteps = run resolver orderlySteps ∧
      (run resolver scatteredSteps).perform (.insertHierarchy {}) =
        .error .hierarchyAfterCallGraph := by
  intro resolver
  obtain ⟨-, -, -, alike⟩ := run_inPhases resolver orderlySteps
  have artifacts (artifact : ArtifactRecord) :
      artifact ∈ scatteredSteps.flatMap BuildStep.artifacts ↔
        artifact ∈ orderlySteps.flatMap BuildStep.artifacts := by
    simp only [scatteredSteps, orderlySteps, List.flatMap_cons, List.flatMap_nil,
      BuildStep.artifacts, List.mem_append, List.mem_cons, List.not_mem_nil, or_false, false_or]
    exact or_iff_right_of_imp .inr
  have hierarchies : accepted { resolver } scatteredSteps = accepted { resolver } orderlySteps := by
    decide +kernel
  have same := alike scatteredSteps artifacts hierarchies rfl
  have ended : ∃ graph, .insertCallGraph graph ∈ orderlySteps := ⟨{}, by simp [orderlySteps]⟩
  refine ⟨same, ?_⟩
  rw [same]
  exact ((run_inPhases resolver orderlySteps).1 {}).mpr ended

end ProgramModel
