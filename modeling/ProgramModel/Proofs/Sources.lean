/-
# ProgramModel.Proofs.Sources -- where the expected calls of a package start

An expected call starts at a method of a supertype, and the supertype is looked up in the
hierarchy that the class was met in.  The record of the supertype's name may come from
elsewhere: a name keeps the record of the first class that carries it, in whatever
hierarchy that one was met.  So two classes may stand behind one name, the one that was
consulted and the one that was recorded.

A build meets all its classes before the first call, so its records are those that
meeting them leaves (`meetAll_of_ofAnalyses`).  The consulted class is itself one of the
classes met, hence its name has a record; what this record declares is what the first
class of the name declares (`expectedCalls_start_declared`).  Where all classes of a name
declare the same, the source of a call is a declared method of its record; where they do
not, it need not be (`expectedCalls_start_undeclared`).
-/
import ProgramModel.Proofs.Builds
import ProgramModel.Proofs.CallPhase
import ProgramModel.Proofs.FirstRecords

namespace ProgramModel

set_option autoImplicit false

/-! ## Declarations -/

/-- Whether the class itself declares a selector. -/
def ClassNode.Declares (node : ClassNode) (selector : String) : Prop :=
  ∃ method ∈ node.methods, method.selector = selector

theorem ClassNode.declares_of_declares? {node : ClassNode} {selector : String}
    {method : MethodDeclaration} (found : node.declares? selector = some method) :
    node.Declares selector := by
  refine ⟨method, List.mem_of_find?_eq_some found, ?_⟩
  simpa using List.find?_some found

/-- A record lists what its class declares. -/
theorem ArtifactResolver.mem_methods_outline {resolver : ArtifactResolver} {node : ClassNode}
    {selector : String} :
    selector ∈ (resolver.outline node).methods ↔ node.Declares selector := by
  simp [ArtifactResolver.outline, ClassNode.Declares]

/-! ## The classes that are met -/

theorem Insertion.mem_placements {insertion : Insertion} {placement : Placement} :
    placement ∈ insertion.placements ↔ placement.resolver = insertion.resolver ∧
      placement.hierarchy = insertion.hierarchy ∧
      placement.node ∈ insertion.hierarchy.classes := by
  unfold Insertion.placements
  rw [List.mem_map]
  constructor
  · rintro ⟨node, there, rfl⟩
    exact ⟨rfl, rfl, there⟩
  · obtain ⟨resolver, hierarchy, node⟩ := placement
    rintro ⟨rfl, rfl, there⟩
    exact ⟨node, there, rfl⟩

namespace Placement

variable {placements : List Placement} {placement : Placement}

/-- All classes with a name declare the same selectors. -/
def Agree (placements : List Placement) (name : String) : Prop :=
  ∀ one ∈ placements, ∀ other ∈ placements, one.name = name → other.name = name →
    ∀ selector, one.node.Declares selector → other.node.Declares selector

/-- A name that some placement has is the name of a first one. -/
theorem exists_first? (there : placement ∈ placements) :
    ∃ first, first? placements placement.name = some first := by
  cases search : first? placements placement.name with
  | some first => exact ⟨first, rfl⟩
  | none => exact absurd (List.find?_eq_none.mp search placement there) (by simp)

end Placement

/-- The classes that a build meets, in their order. -/
def ArtifactResolver.placements (resolver : ArtifactResolver)
    (analyses : List ArtifactAnalysis) : List Placement :=
  (analyses.filterMap ArtifactAnalysis.hierarchy).flatMap fun hierarchy =>
    Insertion.placements ⟨resolver, hierarchy⟩

namespace ArtifactResolver

variable {resolver : ArtifactResolver} {analyses : List ArtifactAnalysis}

theorem mem_placements {placement : Placement} :
    placement ∈ resolver.placements analyses ↔ placement.resolver = resolver ∧
      placement.hierarchy ∈ analyses.filterMap ArtifactAnalysis.hierarchy ∧
      placement.node ∈ placement.hierarchy.classes := by
  unfold placements
  rw [List.mem_flatMap]
  constructor
  · rintro ⟨hierarchy, listed, there⟩
    obtain ⟨same, rfl, inside⟩ := Insertion.mem_placements.mp there
    exact ⟨same, listed, inside⟩
  · rintro ⟨same, listed, inside⟩
    exact ⟨placement.hierarchy, listed, Insertion.mem_placements.mpr ⟨same, rfl, inside⟩⟩

theorem placements_complete (resolver : ArtifactResolver) (inputs : List CompleteAnalysis) :
    resolver.placements (inputs.map CompleteAnalysis.analysis) =
      inputs.flatMap fun input => Insertion.placements ⟨resolver, input.hierarchy⟩ := by
  have hierarchies : (inputs.map CompleteAnalysis.analysis).filterMap ArtifactAnalysis.hierarchy =
      inputs.map CompleteAnalysis.hierarchy := by
    rw [List.filterMap_map, ← List.filterMap_eq_map]
    rfl
  unfold placements
  rw [hierarchies, List.flatMap_map]

end ArtifactResolver

/-! ## The records of a build -/

namespace Package

variable (resolver : ArtifactResolver) (package : Package)

/-- Call graphs only add methods, and leave the classes as they are. -/
theorem foldl_enterCallGraph (inputs : List CompleteAnalysis) :
    (inputs.foldl (enterCallGraph resolver) package).methods.Appends package.methods ∧
      (inputs.foldl (enterCallGraph resolver) package).classes = package.classes := by
  induction inputs generalizing package with
  | nil => exact ⟨MethodRegistry.Appends.refl package.methods, rfl⟩
  | cons input rest ih =>
      obtain ⟨appends, classes⟩ := ih (package.enterCallGraph resolver input)
      have step := insertEdges_appends resolver package input.callGraph.edges
      have kept := classes_insertEdges resolver package input.callGraph.edges
      exact ⟨appends.trans step, classes.trans kept⟩

variable {package} in
/-- What appends methods and leaves the classes goes on from the package. -/
theorem extends_of_appends {later : Package} (appends : later.methods.Appends package.methods)
    (same : later.classes = package.classes) : later.Extends package where
  methods := appends.extends
  classes name record there := by
    rw [classRecord?, same]
    exact there

theorem foldl_enterHierarchy (inputs : List CompleteAnalysis) :
    inputs.foldl (enterHierarchy resolver) package =
      (package.meetAll (resolver.placements (inputs.map CompleteAnalysis.analysis))).value := by
  rw [ArtifactResolver.placements_complete]
  induction inputs generalizing package with
  | nil => rfl
  | cons input rest ih =>
      have first := (package.insertHierarchy_eq_meetAll ⟨resolver, input.hierarchy⟩).1
      rw [List.foldl_cons, List.flatMap_cons, meetAll_append, ih]
      show ((package.insertHierarchy resolver input.hierarchy).value.1.meetAll _).value = _
      rw [first]
      rfl

/-- Entering artifacts enters no class and no method. -/
theorem foldl_enterArtifact (inputs : List CompleteAnalysis) :
    (inputs.foldl enterArtifact package).classes = package.classes ∧
      (inputs.foldl enterArtifact package).methods = package.methods := by
  induction inputs generalizing package with
  | nil => exact ⟨rfl, rfl⟩
  | cons input rest ih => exact ih _

variable {resolver} {analyses : List ArtifactAnalysis} {built : Logged Package}
  (success : ofAnalyses resolver analyses = .ok built)
include success

/-- **A build leaves the records that meeting its classes leaves**, and the methods with more
behind them. -/
theorem meetAll_of_ofAnalyses : ∃ started : Package,
    started.classes = ∅ ∧ started.methods = ∅ ∧
    built.value.methods.Appends (started.meetAll (resolver.placements analyses)).value.methods ∧
    built.value.classes = (started.meetAll (resolver.placements analyses)).value.classes := by
  obtain ⟨inputs, rfl, result⟩ := complete_of_ofAnalyses resolver success
  let started : Package := inputs.foldl enterArtifact {}
  obtain ⟨noClasses, noMethods⟩ := foldl_enterArtifact {} inputs
  have met := foldl_enterHierarchy resolver started inputs
  have called := foldl_enterCallGraph resolver (inputs.foldl (enterHierarchy resolver) started)
    inputs
  have assembled : built.value =
      inputs.foldl (enterCallGraph resolver) (inputs.foldl (enterHierarchy resolver) started) :=
    result
  rw [← assembled, met] at called
  exact ⟨started, noClasses, noMethods, called.1, called.2⟩

/-- A name has a record when a class carries it, with the outline of the first such class. -/
theorem outline?_ofAnalyses (name : String) :
    built.value.outline? name = Placement.kept? (resolver.placements analyses) name := by
  obtain ⟨started, empty, -, -, classes⟩ := meetAll_of_ofAnalyses success
  have kept := started.kept_meetAll (resolver.placements analyses) name
  unfold outline? classRecord? at kept ⊢
  rw [classes, kept, empty]
  rfl

/-- The record of a name is that of the first class that carries it, with its expected calls. -/
theorem records_ofAnalyses {name : String} {placement : Placement}
    (first : Placement.first? (resolver.placements analyses) name = some placement) :
    ∃ record, built.value.classRecord? name = some record ∧
      record.outline = resolver.outline placement.node ∧
      built.value.methods.Realizes record.expectedCalls
        (resolver.expectedEdges placement.hierarchy placement.node) := by
  obtain ⟨started, empty, -, appends, classes⟩ := meetAll_of_ofAnalyses success
  obtain ⟨-, rfl⟩ := Placement.mem_names_of_first? first
  have absent : started.classRecord? placement.name = none := by
    rw [classRecord?, empty]
    rfl
  have grown := extends_of_appends appends classes
  have records := records_meetAll absent first
  obtain ⟨there, -⟩ := Placement.mem_names_of_first? first
  obtain ⟨own, -⟩ := ArtifactResolver.mem_placements.mp there
  rw [own] at records
  exact records.of_extends grown

/-- A record is that of the first class with its name, and expects what dispatches to it. -/
theorem expects_ofAnalyses {name : String} {record : ClassRecord}
    (there : built.value.classRecord? name = some record) :
    ∃ placement, Placement.first? (resolver.placements analyses) name = some placement ∧
      record.outline = resolver.outline placement.node ∧
      ExpectsDispatches resolver placement.hierarchy built.value.methods placement.node record := by
  have outline := outline?_ofAnalyses success name
  unfold outline? Placement.kept? at outline
  rw [there] at outline
  cases first : Placement.first? (resolver.placements analyses) name with
  | none =>
      rw [first] at outline
      cases outline
  | some placement =>
      obtain ⟨kept, recorded, own, realizes⟩ := records_ofAnalyses success first
      obtain rfl : record = kept := Option.some.inj (there.symm.trans recorded)
      exact ⟨placement, rfl, own, expectsDispatches_of_realizes realizes⟩

/-- Where a supertype dispatches to the first class of a name, the record expects the call. -/
theorem exists_expectedCall {name : String} {placement : Placement} {supertype : ClassNode}
    {selector : String} {kind : ExpectedKind}
    (first : Placement.first? (resolver.placements analyses) name = some placement)
    (dispatches : placement.hierarchy.Dispatches placement.node supertype selector kind) :
    ∃ record, built.value.classRecord? name = some record ∧
      ∃ call ∈ record.expectedCalls, built.value.methods.Denotes call.source
        (resolver.identify (supertype.methodReference selector)) := by
  obtain ⟨record, there, -, realizes⟩ := records_ofAnalyses success first
  obtain ⟨call, member, source, -⟩ :=
    realizes.complete _ (ArtifactResolver.expectedEdge_mem dispatches)
  exact ⟨record, there, call, member, source⟩

end Package

/-! ## Sources -/

/-- **An expected call starts at a method that a class of the model declares.**  Its source has a
record, and is declared, open to dispatch, by a class of that name in the hierarchy that the
target's class was met in.  The record lists the source exactly when the first class of the name
declares it, and so whenever all classes of the name declare the same. -/
theorem expectedCalls_start_declared {resolver : ArtifactResolver}
    {analyses : List ArtifactAnalysis} {built : Logged Package}
    (success : Package.ofAnalyses resolver analyses = .ok built) {name : String}
    {record : ClassRecord} (there : built.value.classRecord? name = some record)
    {call : ExpectedCall} (member : call ∈ record.expectedCalls) :
    let met := resolver.placements analyses
    ∃ source above place consulted first,
      built.value.methods.Denotes call.source source ∧
      built.value.classRecord? source.owner = some above ∧
      Placement.first? met name = some place ∧
      (consulted ∈ met ∧ consulted.hierarchy = place.hierarchy ∧ consulted.name = source.owner) ∧
      (∃ declared, consulted.node.declares? source.symbol = some declared ∧
        declared.isOverridable = true) ∧
      Placement.first? met source.owner = some first ∧
      (source.symbol ∈ above.methods ↔ first.node.Declares source.symbol) ∧
      (Placement.Agree met source.owner → source.symbol ∈ above.methods) := by
  intro met
  obtain ⟨place, placed, -, expects⟩ := Package.expects_ofAnalyses success there
  obtain ⟨supertype, selector, dispatches, leaves, -⟩ := (expects.exact call).mp member
  obtain ⟨-, supertypes, -, declared, declares, overridable⟩ :=
    ClassHierarchy.dispatches_iff.mp dispatches
  -- The class consulted is one of those met: it is in the hierarchy of the target's class.
  have inside := ClassHierarchy.mem_of_find? (ClassHierarchy.find?_of_hasSupertype supertypes)
  obtain ⟨own, listed, -⟩ := ArtifactResolver.mem_placements.mp
    (Placement.mem_names_of_first? placed).1
  let consulted : Placement := ⟨resolver, place.hierarchy, supertype⟩
  have seen : consulted ∈ met := ArtifactResolver.mem_placements.mpr ⟨rfl, listed, inside⟩
  -- So its name has a first class, whose record the name keeps.
  obtain ⟨first, earliest⟩ := Placement.exists_first? seen
  obtain ⟨earlier, named⟩ := Placement.mem_names_of_first? earliest
  have recorded := Package.outline?_ofAnalyses success consulted.name
  unfold Package.outline? Placement.kept? at recorded
  rw [earliest] at recorded
  obtain ⟨above, kept, outline⟩ := Option.map_eq_some_iff.mp recorded
  have lists : selector ∈ above.methods ↔ first.node.Declares selector := by
    show selector ∈ above.outline.methods ↔ _
    rw [outline]
    exact ArtifactResolver.mem_methods_outline
  refine ⟨_, above, place, consulted, first, leaves, kept, placed, ⟨seen, rfl, rfl⟩,
    ⟨declared, declares, overridable⟩, earliest, lists, fun agree => lists.mpr ?_⟩
  exact agree consulted seen first earlier rfl named selector
    (ClassNode.declares_of_declares? declares)

/-- A class that declares nothing. -/
def bareClass : ClassNode := { reference := ⟨"a.A", .application⟩ }

/-- A class of the same name that declares a method. -/
def runnableClass : ClassNode :=
  { reference := ⟨"a.A", .application⟩, methods := [{ selector := "run()V" }] }

/-- A class that overrides the method. -/
def runningClass : ClassNode :=
  { reference := ⟨"a.B", .application⟩, superclass := some ⟨"a.A", .application⟩,
    methods := [{ selector := "run()V" }] }

/-- An artifact with the bare class. -/
def bareArtifact : CompleteAnalysis := ⟨⟨"g", "a", "1"⟩, ⟨[bareClass]⟩, {}⟩

/-- An artifact with the two other classes. -/
def runningArtifact : CompleteAnalysis :=
  ⟨⟨"g", "b", "1"⟩, ⟨[runnableClass, runningClass]⟩, {}⟩

theorem dispatches_runningArtifact :
    runningArtifact.hierarchy.Dispatches runningClass runnableClass "run()V" .override := by
  have link : runningArtifact.hierarchy.Links "a.B" ClassHierarchy.superclassNames runningClass
      runnableClass := ClassHierarchy.links_iff.mpr ⟨"a.A", by decide, by decide, by decide⟩
  exact ClassHierarchy.dispatches_iff.mpr
    ⟨rfl, .single link, ⟨_, List.mem_cons_self, rfl, rfl, rfl⟩, _, rfl, rfl⟩

/-- When the artifact that declares the method comes first, the source is in its record. -/
theorem expectedCalls_start_declared_running :
    let resolver := ArtifactResolver.unknowing
    ∃ built record call source above,
      Package.ofAnalyses resolver [runningArtifact.analysis, bareArtifact.analysis] = .ok built ∧
      built.value.classRecord? "a.B" = some record ∧ call ∈ record.expectedCalls ∧
      built.value.methods.Denotes call.source source ∧ source = ⟨"a.A", "run()V", none⟩ ∧
      built.value.classRecord? source.owner = some above ∧ source.symbol ∈ above.methods := by
  intro resolver
  obtain ⟨built, success, -⟩ := Package.ofAnalyses_complete resolver [runningArtifact, bareArtifact]
  let runnable : Placement := ⟨resolver, runningArtifact.hierarchy, runnableClass⟩
  let running : Placement := ⟨resolver, runningArtifact.hierarchy, runningClass⟩
  have met : resolver.placements ([runningArtifact, bareArtifact].map CompleteAnalysis.analysis) =
      [runnable, running, ⟨resolver, bareArtifact.hierarchy, bareClass⟩] := rfl
  have first : Placement.first? (resolver.placements
      ([runningArtifact, bareArtifact].map CompleteAnalysis.analysis)) "a.A" = some runnable := by
    rw [met, Placement.first?_cons, if_pos (by decide)]
  have second : Placement.first? (resolver.placements
      ([runningArtifact, bareArtifact].map CompleteAnalysis.analysis)) "a.B" = some running := by
    rw [met, Placement.first?_cons, if_neg (by decide), Placement.first?_cons, if_pos (by decide)]
  obtain ⟨record, there, call, member, leaves⟩ :=
    Package.exists_expectedCall success second dispatches_runningArtifact
  obtain ⟨source, above, -, -, earliest, denotes, recorded, -, -, -, found, lists, -⟩ :=
    expectedCalls_start_declared success there member
  obtain rfl : source = ⟨"a.A", "run()V", none⟩ := denotes.identity_unique leaves
  obtain rfl : runnable = earliest := Option.some.inj (first.symm.trans found)
  refine ⟨built, record, call, _, above, success, there, member, denotes, rfl, recorded, ?_⟩
  exact lists.mpr ⟨_, List.mem_cons_self, rfl⟩

/-- When the other artifact comes first, the class that is consulted is not the one recorded: the
call starts at a method that the record of its class does not list. -/
theorem expectedCalls_start_undeclared :
    let resolver := ArtifactResolver.unknowing
    ∃ built record call source above,
      Package.ofAnalyses resolver [bareArtifact.analysis, runningArtifact.analysis] = .ok built ∧
      built.value.classRecord? "a.B" = some record ∧ call ∈ record.expectedCalls ∧
      built.value.methods.Denotes call.source source ∧ source = ⟨"a.A", "run()V", none⟩ ∧
      built.value.classRecord? source.owner = some above ∧ source.symbol ∉ above.methods := by
  intro resolver
  obtain ⟨built, success, -⟩ := Package.ofAnalyses_complete resolver [bareArtifact, runningArtifact]
  let bare : Placement := ⟨resolver, bareArtifact.hierarchy, bareClass⟩
  let running : Placement := ⟨resolver, runningArtifact.hierarchy, runningClass⟩
  have met : resolver.placements ([bareArtifact, runningArtifact].map CompleteAnalysis.analysis) =
      [bare, ⟨resolver, runningArtifact.hierarchy, runnableClass⟩, running] := rfl
  have first : Placement.first? (resolver.placements
      ([bareArtifact, runningArtifact].map CompleteAnalysis.analysis)) "a.A" = some bare := by
    rw [met, Placement.first?_cons, if_pos (by decide)]
  have last : Placement.first? (resolver.placements
      ([bareArtifact, runningArtifact].map CompleteAnalysis.analysis)) "a.B" = some running := by
    rw [met, Placement.first?_cons, if_neg (by decide), Placement.first?_cons, if_neg (by decide),
      Placement.first?_cons, if_pos (by decide)]
  obtain ⟨record, there, call, member, leaves⟩ :=
    Package.exists_expectedCall success last dispatches_runningArtifact
  obtain ⟨above, recorded, outline, -⟩ := Package.records_ofAnalyses success first
  refine ⟨built, record, call, _, above, success, there, member, leaves, rfl, recorded, ?_⟩
  show "run()V" ∉ above.outline.methods
  rw [outline, ArtifactResolver.mem_methods_outline]
  rintro ⟨method, declared, -⟩
  cases declared

end ProgramModel
