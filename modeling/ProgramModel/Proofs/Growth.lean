/-
# ProgramModel.Proofs.Growth -- further inputs only add to what there is

Analyses may be added behind those that a build has.  The larger build hands out other ids,
for it enters the new hierarchies before the first of the old calls, and the new classes
may repeat old ones under other supertypes.  The document of a build is computed without
ids (`Document.ofInputs`), so again it is enough to compare what that reads.

The artifacts and the calls of the larger build are images of longer lists.  Its classes are
entered from where those of the smaller build stopped, so the entries that there are stay
(`mem_classes_append`); and a class is entered only under a name without an entry, while
all names of the smaller build have theirs (`names_ofInputs`).  So what is new among the
classes is new by name (`ofAnalyses_append`).
-/
import ProgramModel.Proofs.Rearrangement

namespace ProgramModel

set_option autoImplicit false

/-! ## Nothing is missing -/

/-- Both halves of the analysis are there. -/
def ArtifactAnalysis.IsComplete (analysis : ArtifactAnalysis) : Prop :=
  analysis.hierarchy.isSome = true ∧ analysis.callGraph.isSome = true

theorem ArtifactAnalysis.IsComplete.exists_input {analysis : ArtifactAnalysis}
    (complete : analysis.IsComplete) : ∃ input : CompleteAnalysis, analysis = input.analysis := by
  obtain ⟨artifact, hierarchy, callGraph⟩ := analysis
  obtain ⟨classified, called⟩ := complete
  obtain ⟨hierarchy, rfl⟩ := Option.isSome_iff_exists.mp classified
  obtain ⟨callGraph, rfl⟩ := Option.isSome_iff_exists.mp called
  exact ⟨⟨artifact, hierarchy, callGraph⟩, rfl⟩

/-- Complete analyses are those of inputs. -/
theorem exists_inputs {analyses : List ArtifactAnalysis}
    (complete : ∀ analysis ∈ analyses, analysis.IsComplete) :
    ∃ inputs : List CompleteAnalysis, analyses = inputs.map CompleteAnalysis.analysis := by
  induction analyses with
  | nil => exact ⟨[], rfl⟩
  | cons analysis rest ih =>
      obtain ⟨input, rfl⟩ := (complete analysis List.mem_cons_self).exists_input
      obtain ⟨inputs, rfl⟩ := ih fun other there => complete other (List.mem_cons_of_mem _ there)
      exact ⟨input :: inputs, rfl⟩

/-! ## The entries of more inputs -/

namespace Document

variable {resolver : ArtifactResolver} {classes : SortedSet ClassEntry} {name : String}

theorem names_addClass (located : ClassHierarchy × ClassNode) :
    names (addClass resolver classes located) name = true ↔
      located.2.qualifiedName = name ∨ names classes name = true := by
  have named : (resolver.classEntry located.1 located.2).name = located.2.qualifiedName := rfl
  unfold addClass
  split
  · rename_i known
    constructor
    · exact .inr
    · rintro (rfl | before)
      · exact known
      · exact before
  · rw [names_insert, named, Bool.or_eq_true, beq_iff_eq]

/-- Entering classes gives an entry to each of their names. -/
theorem names_foldl_addClass {located : List (ClassHierarchy × ClassNode)} :
    names (located.foldl (addClass resolver) classes) name = true ↔
      name ∈ located.map (fun place => place.2.qualifiedName) ∨ names classes name = true := by
  induction located generalizing classes with
  | nil => simp
  | cons head rest ih =>
      rw [List.foldl_cons, ih, names_addClass, List.map_cons, List.mem_cons]
      rw [eq_comm (a := name), or_left_comm, or_assoc]

variable (resolver) (inputs further : List CompleteAnalysis)

/-- **The names with an entry are those of the classes.** -/
theorem names_ofInputs :
    names (ofInputs resolver inputs).classes name = true ↔ name ∈ classNames inputs := by
  rw [ofInputs, names_foldl_addClass, names_located]
  exact or_iff_left Bool.false_ne_true

/-- **Further inputs leave the entries that there are**, and bring others only for names that have
none. -/
theorem mem_classes_append {entry : ClassEntry} :
    entry ∈ (ofInputs resolver (inputs ++ further)).classes ↔
      entry ∈ (ofInputs resolver inputs).classes ∨
      ∃ place, FirstNew (ofInputs resolver inputs).classes
          (further.flatMap CompleteAnalysis.located) place ∧
        resolver.classEntry place.1 place.2 = entry := by
  unfold ofInputs
  rw [List.flatMap_append, List.foldl_append, mem_foldl_addClass]

variable {resolver inputs further}

/-- An entry that further inputs bring is of a name that the inputs do not have. -/
theorem not_mem_classNames_of_new {entry : ClassEntry}
    (there : entry ∈ (ofInputs resolver (inputs ++ further)).classes)
    (new : entry ∉ (ofInputs resolver inputs).classes) : entry.name ∉ classNames inputs := by
  obtain old | ⟨place, ⟨unnamed, -⟩, rfl⟩ := (mem_classes_append resolver inputs further).mp there
  · exact absurd old new
  · intro listed
    have named : names (ofInputs resolver inputs).classes place.2.qualifiedName = true :=
      (names_ofInputs resolver inputs).mpr listed
    rw [named] at unnamed
    cases unnamed

theorem mem_artifacts_append {artifact : ArtifactRecord}
    (there : artifact ∈ (ofInputs resolver inputs).artifacts) :
    artifact ∈ (ofInputs resolver (inputs ++ further)).artifacts := by
  simp only [ofInputs, SortedSet.mem_ofList, List.map_append, List.mem_append] at there ⊢
  exact .inl there

/-- The calls of either half stay. -/
theorem mem_callEntries_append {attributed : Bool} {entry : CallEntry}
    (there : entry ∈ SortedSet.ofList
      (resolver.callEntries attributed (inputs.flatMap CompleteAnalysis.edges))) :
    entry ∈ SortedSet.ofList
      (resolver.callEntries attributed ((inputs ++ further).flatMap CompleteAnalysis.edges)) := by
  simp only [SortedSet.mem_ofList, ArtifactResolver.callEntries, List.flatMap_append,
    List.filter_append, List.map_append, List.mem_append] at there ⊢
  exact .inl there

end Document

/-- The classes of an analysis, as listed. -/
def ArtifactAnalysis.classes (analysis : ArtifactAnalysis) : List ClassNode :=
  (analysis.hierarchy.map ClassHierarchy.classes).getD []

theorem mem_classNames_of_mem_classes {inputs : List CompleteAnalysis}
    {analysis : ArtifactAnalysis} (listed : analysis ∈ inputs.map CompleteAnalysis.analysis)
    {node : ClassNode} (there : node ∈ analysis.classes) :
    node.qualifiedName ∈ classNames inputs := by
  obtain ⟨input, member, rfl⟩ := List.mem_map.mp listed
  have named : node.qualifiedName ∈ input.hierarchy.names := List.mem_map.mpr ⟨node, there, rfl⟩
  exact List.mem_flatMap.mpr ⟨input, member, named⟩

/-- **Adding analyses only extends the model.**  When nothing is missing, the build of more
analyses succeeds as the build of the first ones does.  Its document has every artifact, every
call in its half and every class of theirs, as they are; and any class that it has beside those is
of a name that no class of the first analyses carries. -/
theorem ofAnalyses_append (resolver : ArtifactResolver) {analyses further : List ArtifactAnalysis}
    (complete : ∀ analysis ∈ analyses ++ further, analysis.IsComplete) :
    ∃ one more,
      Package.ofAnalyses resolver analyses = .ok one ∧
      Package.ofAnalyses resolver (analyses ++ further) = .ok more ∧
      (∀ artifact ∈ one.value.document.artifacts, artifact ∈ more.value.document.artifacts) ∧
      (∀ call ∈ one.value.document.resolvedCalls, call ∈ more.value.document.resolvedCalls) ∧
      (∀ call ∈ one.value.document.unresolvedCalls, call ∈ more.value.document.unresolvedCalls) ∧
      (∀ entry ∈ one.value.document.classes, entry ∈ more.value.document.classes) ∧
      ∀ entry ∈ more.value.document.classes, entry ∉ one.value.document.classes →
        ∀ analysis ∈ analyses, ∀ node ∈ analysis.classes, node.qualifiedName ≠ entry.name := by
  obtain ⟨inputs, rfl⟩ := exists_inputs fun analysis there =>
    complete analysis (List.mem_append_left _ there)
  obtain ⟨others, rfl⟩ := exists_inputs fun analysis there =>
    complete analysis (List.mem_append_right _ there)
  obtain ⟨one, builds, result⟩ := Package.ofAnalyses_complete resolver inputs
  obtain ⟨more, builds', result'⟩ := Package.ofAnalyses_complete resolver (inputs ++ others)
  rw [List.map_append] at builds'
  have shown := (Package.shows_assemble resolver inputs).document
  have shown' := (Package.shows_assemble resolver (inputs ++ others)).document
  refine ⟨one, more, builds, builds', ?_⟩
  rw [result, result', shown, shown']
  refine ⟨fun artifact there => Document.mem_artifacts_append there,
    fun call there => Document.mem_callEntries_append there,
    fun call there => Document.mem_callEntries_append there, ?_, ?_⟩
  · intro entry there
    exact (Document.mem_classes_append resolver inputs others).mpr (.inl there)
  · intro entry there new analysis listed node member same
    have unlisted := Document.not_mem_classNames_of_new there new
    rw [← same] at unlisted
    exact unlisted (mem_classNames_of_mem_classes listed member)

/-- A class on its own, as one artifact lists it. -/
def plainClass : ClassNode :=
  { reference := ⟨"La/A;", .application⟩, methods := [{ selector := "run()V" }] }

/-- A class that declares the same method. -/
def baseClass : ClassNode :=
  { reference := ⟨"a.Base", .application⟩, methods := [{ selector := "run()V" }] }

/-- The class as another artifact lists it, with the second one for its superclass. -/
def derivedClass : ClassNode := { plainClass with superclass := some baseClass.reference }

/-- The class keeps its entry without a superclass, although the other artifact knows one, and any
entry that comes in is of another name. -/
theorem ofAnalyses_append_derived :
    let resolver := ArtifactResolver.unknowing
    let first : CompleteAnalysis := ⟨⟨"g", "a", "1"⟩, ⟨[plainClass]⟩, {}⟩
    let second : CompleteAnalysis := ⟨⟨"g", "b", "1"⟩, ⟨[derivedClass, baseClass]⟩, {}⟩
    (∀ analysis ∈ [first.analysis] ++ [second.analysis], analysis.IsComplete) ∧
      ∃ one more entry,
        Package.ofAnalyses resolver [first.analysis] = .ok one ∧
        Package.ofAnalyses resolver [first.analysis, second.analysis] = .ok more ∧
        entry ∈ one.value.document.classes ∧ entry ∈ more.value.document.classes ∧
        entry.name = "a.A" ∧ entry.superclass = none ∧
        ∀ other ∈ more.value.document.classes, other ∉ one.value.document.classes →
          other.name ≠ "a.A" := by
  intro resolver first second
  have complete : ∀ analysis ∈ [first.analysis] ++ [second.analysis], analysis.IsComplete := by
    intro analysis listed
    have one_of_both : analysis = first.analysis ∨ analysis = second.analysis := by
      simpa using listed
    rcases one_of_both with rfl | rfl
    · exact ⟨rfl, rfl⟩
    · exact ⟨rfl, rfl⟩
  obtain ⟨one, more, builds, builds', -, -, -, stays, fresh⟩ :=
    ofAnalyses_append resolver complete
  obtain ⟨built, success, result⟩ := Package.ofAnalyses_complete resolver [first]
  obtain rfl : built = one := Except.ok.inj (success.symm.trans builds)
  have shown := (Package.shows_assemble resolver [first]).document
  have there : resolver.classEntry first.hierarchy plainClass ∈ built.value.document.classes := by
    rw [result, shown]
    refine Document.mem_foldl_addClass.mpr (.inr ⟨(first.hierarchy, plainClass), ⟨rfl, ?_⟩, rfl⟩)
    decide
  refine ⟨complete, built, more, _, builds, builds', there, stays _ there, ?_, rfl, ?_⟩
  · decide
  · intro other listed new same
    have differs := fresh other listed new first.analysis List.mem_cons_self plainClass
      List.mem_cons_self
    exact differs same.symm

end ProgramModel
