/-
# ProgramModel.Proofs.Ledger -- any operations, in any order, and what they add up to

A build enters hierarchies first and call graphs after them, under one resolver.  The
operations themselves ask for neither: here they come in any order and each brings its own
resolver.  A `Ledger` holds the package that a list of operations leads to, and the sums
of the counts that the insertions returned.  One operation keeps the books balanced
(`Balanced.apply`), hence so does any list of them (`balanced_run`), and `run_invariant`
spells out what that says of the package.
-/
import ProgramModel.Proofs.Coherence

namespace ProgramModel

set_option autoImplicit false

/-- What can be done to a package and its registry. -/
inductive Operation where
  | insertHierarchy (resolver : ArtifactResolver) (hierarchy : ClassHierarchy)
  | insertCallGraph (resolver : ArtifactResolver) (graph : CallGraph)
  | addArtifact (artifact : ArtifactRecord)
  | editMetadata (id : MethodId) (change : Metadata → Metadata)

/-- A package with the sums of the counts that insertions into it have returned. -/
structure Ledger where
  package : Package := {}
  newClasses : Nat := 0
  newCalls : Nat := 0

namespace Ledger

/-- The books after one more operation. -/
def apply (ledger : Ledger) : Operation → Ledger
  | .insertHierarchy resolver hierarchy =>
      let (package, inserted) := (ledger.package.insertHierarchy resolver hierarchy).value
      { ledger with package, newClasses := ledger.newClasses + inserted }
  | .insertCallGraph resolver graph =>
      let (package, inserted) := (ledger.package.insertCallGraph resolver graph).value
      { ledger with package, newCalls := ledger.newCalls + inserted }
  | .addArtifact artifact => { ledger with package := ledger.package.addArtifact artifact }
  | .editMetadata id change =>
      { ledger with package :=
          { ledger.package with methods := ledger.package.methods.modifyMetadata id change } }

/-- The books after a list of operations on the empty package and registry. -/
def run (operations : List Operation) : Ledger := operations.foldl apply {}

/-- The package is coherent, and it has as many classes and calls as were reported new. -/
structure Balanced (ledger : Ledger) : Prop where
  coherent : ledger.package.Coherent
  classes : ledger.package.classes.size = ledger.newClasses
  calls : ledger.package.callCount = ledger.newCalls

theorem balanced_empty : Balanced {} := ⟨Package.coherent_empty, rfl, rfl⟩

/-- **One operation keeps the books balanced.** -/
theorem Balanced.apply {ledger : Ledger} (balanced : ledger.Balanced) (operation : Operation) :
    (ledger.apply operation).Balanced := by
  cases operation with
  | insertHierarchy resolver hierarchy =>
      obtain ⟨calls, classes⟩ := Package.counts_insertClasses resolver hierarchy ledger.package
        hierarchy.classes
      refine ⟨balanced.coherent.insertClasses resolver hierarchy hierarchy.classes, ?_, ?_⟩
      · exact classes.trans (congrArg (· + _) balanced.classes)
      · exact calls.trans balanced.calls
  | insertCallGraph resolver graph =>
      have classes := Package.classes_insertEdges resolver ledger.package graph.edges
      have calls := Package.callCount_insertEdges resolver ledger.package graph.edges
      refine ⟨balanced.coherent.insertEdges resolver graph.edges, ?_, ?_⟩
      · exact (congrArg SortedMap.size classes).trans balanced.classes
      · exact calls.trans (congrArg (· + _) balanced.calls)
  | addArtifact artifact =>
      exact ⟨balanced.coherent.addArtifact artifact, balanced.classes, balanced.calls⟩
  | editMetadata id change =>
      have grown := MethodRegistry.modifyMetadata_extends ledger.package.methods id change
      exact ⟨balanced.coherent.of_extends grown, balanced.classes, balanced.calls⟩

/-- What holds at the start and is kept by every operation holds after any of them. -/
theorem run_induction {motive : Ledger → Prop} (start : motive {})
    (step : ∀ ledger operation, motive ledger → motive (ledger.apply operation))
    (operations : List Operation) : motive (run operations) := by
  have goesOn {ledger : Ledger} (before : motive ledger) :
      motive (operations.foldl apply ledger) := by
    induction operations generalizing ledger with
    | nil => exact before
    | cons operation rest ih => exact ih (step ledger operation before)
  exact goesOn start

theorem balanced_run (operations : List Operation) : (run operations).Balanced := by
  refine run_induction balanced_empty ?_ operations
  intro ledger operation balanced
  exact balanced.apply operation

end Ledger

namespace Package

/-- The id is the place of a method of the registry. -/
def Knows (package : Package) (id : MethodId) : Prop :=
  ∃ method, package.methods.get? id = some method

/-- The id is the place of a method that is attributed to an artifact, or of one that is not. -/
def KnowsAs (package : Package) (attributed : Bool) (id : MethodId) : Prop :=
  ∃ method, package.methods.get? id = some method ∧ method.identity.isResolved = attributed

variable {package : Package}

theorem knows_of_denotes {id : MethodId} {identity : MethodIdentity}
    (denotes : package.methods.Denotes id identity) : package.Knows id := by
  obtain ⟨method, there, -⟩ := MethodRegistry.denotes_iff.mp denotes
  exact ⟨method, there⟩

theorem KnowsAs.unique {id : MethodId} {first second : Bool} (one : package.KnowsAs first id)
    (other : package.KnowsAs second id) : first = second := by
  obtain ⟨method, there, attributed⟩ := one
  obtain ⟨another, same, otherwise⟩ := other
  rw [there] at same
  cases same
  exact attributed.symm.trans otherwise

theorem HalfDenotes.knows {calls : SortedSet Call} {attributed : Bool}
    (half : HalfDenotes package.methods calls attributed) {call : Call} (there : call ∈ calls) :
    package.Knows call.source ∧ package.KnowsAs attributed call.target := by
  obtain ⟨source, target, leaves, arrives, same⟩ := half call there
  obtain ⟨method, found, rfl⟩ := MethodRegistry.denotes_iff.mp arrives
  exact ⟨knows_of_denotes leaves, method, found, same⟩

theorem KnowsAs.knows {id : MethodId} {attributed : Bool} (known : package.KnowsAs attributed id) :
    package.Knows id := by
  obtain ⟨method, there, -⟩ := known
  exact ⟨method, there⟩

/-! ## What a coherent package knows -/

variable {call : Call}

theorem Coherent.knows_call (coherent : package.Coherent) (there : call ∈ package.calls) :
    package.Knows call.source ∧ package.Knows call.target := by
  rcases List.mem_append.mp there with resolved | unresolved
  · exact (coherent.resolved.knows resolved).imp_right KnowsAs.knows
  · exact (coherent.unresolved.knows unresolved).imp_right KnowsAs.knows

theorem Coherent.knows_expected (coherent : package.Coherent) {name : String}
    {record : ClassRecord} (there : package.classRecord? name = some record)
    {call : ExpectedCall} (member : call ∈ record.expectedCalls) :
    package.Knows call.source ∧ package.Knows call.target := by
  obtain ⟨edge, leaves, arrives, -⟩ := coherent.expected name record there call member
  exact ⟨knows_of_denotes leaves, knows_of_denotes arrives⟩

/-- No call is in both halves: its target would be attributed and not attributed. -/
theorem Coherent.not_mem_both (coherent : package.Coherent) (call : Call) :
    ¬ (call ∈ package.resolvedCalls ∧ call ∈ package.unresolvedCalls) := by
  rintro ⟨resolved, unresolved⟩
  cases (coherent.resolved.knows resolved).2.unique (coherent.unresolved.knows unresolved).2

/-- The half of a call can be read off its target. -/
theorem Coherent.mem_half_iff (coherent : package.Coherent) (there : call ∈ package.calls) :
    (call ∈ package.resolvedCalls ↔ package.KnowsAs true call.target) ∧
      (call ∈ package.unresolvedCalls ↔ package.KnowsAs false call.target) := by
  rcases List.mem_append.mp there with resolved | unresolved
  · have known := (coherent.resolved.knows resolved).2
    refine ⟨iff_of_true resolved known, iff_of_false ?_ fun other => ?_⟩
    · exact fun unresolved => coherent.not_mem_both call ⟨resolved, unresolved⟩
    · cases known.unique other
  · have known := (coherent.unresolved.knows unresolved).2
    refine ⟨iff_of_false ?_ fun other => ?_, iff_of_true unresolved known⟩
    · exact fun resolved => coherent.not_mem_both call ⟨resolved, unresolved⟩
    · cases known.unique other

end Package

/-- **What is true of every package that operations lead to.**  Every id in a call or an expected
call is the place of a method.  A call is in the resolved half when its target is attributed and in
the unresolved half when it is not, never in both.  Every record stands under its own name.  And
there are as many classes and calls as the insertions have reported new. -/
theorem run_invariant (operations : List Operation) :
    let ledger := Ledger.run operations
    let package := ledger.package
    (∀ call ∈ package.calls, package.Knows call.source ∧ package.Knows call.target) ∧
    (∀ name record, package.classRecord? name = some record →
      ∀ call ∈ record.expectedCalls, package.Knows call.source ∧ package.Knows call.target) ∧
    (∀ call ∈ package.calls,
      (call ∈ package.resolvedCalls ↔ package.KnowsAs true call.target) ∧
      (call ∈ package.unresolvedCalls ↔ package.KnowsAs false call.target)) ∧
    (∀ call, ¬ (call ∈ package.resolvedCalls ∧ call ∈ package.unresolvedCalls)) ∧
    (∀ name record, package.classRecord? name = some record → record.name = name) ∧
    package.classes.size = ledger.newClasses ∧
    package.resolvedCalls.size + package.unresolvedCalls.size = ledger.newCalls := by
  intro ledger package
  have balanced : ledger.Balanced := Ledger.balanced_run operations
  have coherent : package.Coherent := balanced.coherent
  have expected (name : String) (record : ClassRecord)
      (there : package.classRecord? name = some record) (call : ExpectedCall)
      (member : call ∈ record.expectedCalls) :
      package.Knows call.source ∧ package.Knows call.target :=
    coherent.knows_expected there member
  exact ⟨fun _ there => coherent.knows_call there, expected,
    fun _ there => coherent.mem_half_iff there, coherent.not_mem_both, coherent.named,
    balanced.classes, balanced.calls⟩

end ProgramModel
