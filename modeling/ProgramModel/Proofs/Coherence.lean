/-
# ProgramModel.Proofs.Coherence -- what holds of a package whatever has been done to it

Ids are plain numbers, and which half a call is in is decided once, when the call comes
in.  `Coherent` says what keeps this sound: every id in a call or in a record denotes a
method of the registry, the targets of one half of the calls are attributed and those
of the other are not, and a record stands under its own name.

Each operation keeps a package coherent, from whatever resolver and in whatever order:
methods only come in at the end, so ids go on denoting what they did, and an attribution
is part of what a method is known by, so it does not change either.  And what an insertion
reports as new is by how much the package has grown (`callCount_insertEdges`,
`counts_insertClasses`).
-/
import ProgramModel.Build.Calls
import ProgramModel.Proofs.Classes

namespace ProgramModel

set_option autoImplicit false

namespace Package

open MethodRegistry

/-! ## Coherence -/

/-- Both ends of every call denote methods, and the targets are attributed or not, as given. -/
def HalfDenotes (registry : MethodRegistry) (calls : SortedSet Call) (attributed : Bool) : Prop :=
  ∀ call ∈ calls, ∃ source target, registry.Denotes call.source source ∧
    registry.Denotes call.target target ∧ target.isResolved = attributed

/-- Ids denote, halves follow attributions, and records stand under their names. -/
structure Coherent (package : Package) : Prop where
  resolved : HalfDenotes package.methods package.resolvedCalls true
  unresolved : HalfDenotes package.methods package.unresolvedCalls false
  expected : ∀ name record, package.classRecord? name = some record →
    ∀ call ∈ record.expectedCalls, ∃ edge, package.methods.DenotesCall call edge
  named : ∀ name record, package.classRecord? name = some record → record.name = name

theorem coherent_empty : Coherent {} where
  resolved call there := absurd there (SortedSet.not_mem_empty call)
  unresolved call there := absurd there (SortedSet.not_mem_empty call)
  expected name record there := by cases there
  named name record there := by cases there

variable {registry later : MethodRegistry} {calls : SortedSet Call} {attributed : Bool}
  {package : Package}

theorem HalfDenotes.of_extends (half : HalfDenotes registry calls attributed)
    (grown : later.Extends registry) : HalfDenotes later calls attributed := by
  intro call there
  obtain ⟨source, target, leaves, arrives, same⟩ := half call there
  exact ⟨source, target, leaves.of_extends grown, arrives.of_extends grown, same⟩

theorem HalfDenotes.insert (half : HalfDenotes registry calls attributed) {call : Call}
    {source target : MethodIdentity} (leaves : registry.Denotes call.source source)
    (arrives : registry.Denotes call.target target) (same : target.isResolved = attributed) :
    HalfDenotes registry (calls.insert call) attributed := by
  intro other there
  rcases SortedSet.mem_insert.mp there with rfl | old
  · exact ⟨source, target, leaves, arrives, same⟩
  · exact half other old

/-- Whether a method is resolved can be read off what its id denotes. -/
theorem isResolved_of_denotes {id : MethodId} {identity : MethodIdentity}
    (denotes : package.methods.Denotes id identity) :
    package.isResolved id = identity.isResolved := by
  obtain ⟨method, there, rfl⟩ := denotes_iff.mp denotes
  simp [isResolved, there]

/-! ## What keeps it -/

theorem Coherent.addArtifact (coherent : package.Coherent) (artifact : ArtifactRecord) :
    (package.addArtifact artifact).Coherent :=
  ⟨coherent.resolved, coherent.unresolved, coherent.expected, coherent.named⟩

/-- A registry that has grown may take the place of the old one. -/
theorem Coherent.of_extends (coherent : package.Coherent)
    (grown : registry.Extends package.methods) : { package with methods := registry }.Coherent where
  resolved := coherent.resolved.of_extends grown
  unresolved := coherent.unresolved.of_extends grown
  expected name record there call member := by
    obtain ⟨edge, denotes⟩ := coherent.expected name record there call member
    exact ⟨edge, denotes.of_extends grown⟩
  named := coherent.named

/-- A call between methods of the registry goes into the half of its target. -/
theorem Coherent.addCall (coherent : package.Coherent) {call : Call}
    {source target : MethodIdentity} (leaves : package.methods.Denotes call.source source)
    (arrives : package.methods.Denotes call.target target) : (package.addCall call).Coherent := by
  have half := isResolved_of_denotes arrives
  unfold Package.addCall
  split
  · rename_i resolved
    exact ⟨coherent.resolved.insert leaves arrives (half ▸ resolved), coherent.unresolved,
      coherent.expected, coherent.named⟩
  · rename_i unresolved
    have notResolved : target.isResolved = false := by simpa [half] using unresolved
    exact ⟨coherent.resolved, coherent.unresolved.insert leaves arrives notResolved,
      coherent.expected, coherent.named⟩

/-- A record whose calls realize some edges may be added. -/
theorem Coherent.addClassRecord (coherent : package.Coherent) {record : ClassRecord}
    {edges : List ExpectedEdge}
    (realizes : package.methods.Realizes record.expectedCalls edges) :
    (package.addClassRecord record).Coherent where
  resolved := coherent.resolved
  unresolved := coherent.unresolved
  expected name other there call member := by
    rw [classRecord?_addClassRecord] at there
    split at there
    · cases there
      obtain ⟨edge, -, denotes⟩ := realizes.sound call member
      exact ⟨edge, denotes⟩
    · exact coherent.expected name other there call member
  named name other there := by
    rw [classRecord?_addClassRecord] at there
    split at there
    · rename_i same
      cases there
      exact same.symm
    · exact coherent.named name other there

variable (resolver : ArtifactResolver) (hierarchy : ClassHierarchy)

theorem Coherent.insertClass (coherent : package.Coherent) (node : ClassNode) :
    (package.insertClass resolver hierarchy node).value.1.Coherent := by
  rcases insertClass_cases resolver hierarchy package node with ⟨kept, -, same⟩ | ⟨-, new⟩
  · rw [same]; exact coherent
  · rw [new]
    exact (coherent.of_extends (draftClass_extends resolver hierarchy node package.methods)
      ).addClassRecord (draftClass_realizes resolver hierarchy node package.methods)

theorem Coherent.insertClasses (coherent : package.Coherent) (nodes : List ClassNode) :
    (package.insertClasses resolver hierarchy nodes).value.1.Coherent := by
  refine insertClasses_induction resolver hierarchy package ?_ coherent nodes
  intro package node coherent
  exact coherent.insertClass resolver hierarchy node

/-- **All that inserting an edge can do**: both ends are entered, and the call between their ids
is added. -/
theorem insertEdge_spec (package : Package) (edge : CallEdge) :
    ∃ registry call, registry.Extends package.methods ∧
      registry.Denotes call.source (resolver.identify edge.caller) ∧
      registry.Denotes call.target (resolver.identify edge.callee) ∧
      call.type = edge.dispatch.callType ∧
      package.insertEdge resolver edge =
        ({ package with methods := registry }.addCall call,
          { package with methods := registry }.isNewCall call) := by
  let first := resolver.resolve package.methods edge.caller
  let second := resolver.resolve first.2 edge.callee
  have grown : second.2.Extends first.2 := resolver.resolve_extends _ _
  refine ⟨second.2, ⟨first.1, second.1, edge.dispatch.callType⟩,
    grown.trans (resolver.resolve_extends _ _), ?_, resolver.resolve_denotes _ _, rfl, rfl⟩
  exact (resolver.resolve_denotes _ _).of_extends grown

theorem Coherent.insertEdge (coherent : package.Coherent) (edge : CallEdge) :
    (package.insertEdge resolver edge).1.Coherent := by
  obtain ⟨registry, call, grown, source, target, -, same⟩ := insertEdge_spec resolver package edge
  rw [same]
  exact (coherent.of_extends grown).addCall source target

theorem insertEdges_cons (package : Package) (edge : CallEdge) (rest : List CallEdge) :
    package.insertEdges resolver (edge :: rest) =
      let step := package.insertEdge resolver edge
      let last := step.1.insertEdges resolver rest
      (last.1, step.2.toNat + last.2) := rfl

/-- What inserting one edge keeps, inserting all of them keeps. -/
theorem insertEdges_induction {motive : Package → Prop}
    (step : ∀ package edge, motive package → motive (package.insertEdge resolver edge).1)
    (start : motive package) (edges : List CallEdge) :
    motive (package.insertEdges resolver edges).1 := by
  induction edges generalizing package with
  | nil => exact start
  | cons edge rest ih =>
      rw [insertEdges_cons]
      exact ih (step package edge start)

theorem Coherent.insertEdges (coherent : package.Coherent) (edges : List CallEdge) :
    (package.insertEdges resolver edges).1.Coherent := by
  refine insertEdges_induction resolver ?_ coherent edges
  intro package edge coherent
  exact coherent.insertEdge resolver edge

/-! ## What there was before -/

theorem extends_of_methods (package : Package) {registry : MethodRegistry}
    (grown : registry.Extends package.methods) :
    Extends { package with methods := registry } package :=
  ⟨grown, fun _ _ there => there⟩

theorem addCall_extends (package : Package) (call : Call) :
    (package.addCall call).Extends package := by
  unfold addCall
  split <;> exact ⟨MethodRegistry.Extends.refl _, fun _ _ there => there⟩

theorem insertEdge_extends (package : Package) (edge : CallEdge) :
    (package.insertEdge resolver edge).1.Extends package := by
  obtain ⟨registry, call, grown, -, -, -, same⟩ := insertEdge_spec resolver package edge
  rw [same]
  exact (addCall_extends _ call).trans (package.extends_of_methods grown)

theorem insertEdges_extends (package : Package) (edges : List CallEdge) :
    (package.insertEdges resolver edges).1.Extends package := by
  refine insertEdges_induction (motive := fun later => later.Extends package) resolver ?_
    (Extends.refl package) edges
  intro later edge grown
  exact (insertEdge_extends resolver later edge).trans grown

/-! ## Counts -/

/-- The number of calls in both halves. -/
def callCount (package : Package) : Nat := package.resolvedCalls.size + package.unresolvedCalls.size

theorem callCount_addCall (package : Package) (call : Call) :
    (package.addCall call).callCount = package.callCount + (package.isNewCall call).toNat := by
  unfold addCall isNewCall callCount
  split <;> simp only [SortedSet.size_insert] <;> omega

theorem callCount_insertEdges (package : Package) (edges : List CallEdge) :
    (package.insertEdges resolver edges).1.callCount =
      package.callCount + (package.insertEdges resolver edges).2 := by
  induction edges generalizing package with
  | nil => rfl
  | cons edge rest ih =>
      obtain ⟨registry, call, -, -, -, -, same⟩ := insertEdge_spec resolver package edge
      have step := callCount_addCall { package with methods := registry } call
      rw [insertEdges_cons, ih, same, step]
      simp only [callCount]
      omega

theorem callCount_insertClass (package : Package) (node : ClassNode) :
    (package.insertClass resolver hierarchy node).value.1.callCount = package.callCount := by
  rcases insertClass_cases resolver hierarchy package node with ⟨kept, -, same⟩ | ⟨-, new⟩
  · rw [same]
  · rw [new]; rfl

theorem classCount_insertClass (package : Package) (node : ClassNode) :
    (package.insertClass resolver hierarchy node).value.1.classes.size =
      package.classes.size + (package.insertClass resolver hierarchy node).value.2.toNat := by
  rcases insertClass_cases resolver hierarchy package node with ⟨kept, -, same⟩ | ⟨absent, new⟩
  · rw [same]; rfl
  · rw [new]
    refine SortedMap.size_insert_of_get?_none ?_
    rw [name_draftClass]
    exact absent

theorem counts_insertClasses (package : Package) (nodes : List ClassNode) :
    (package.insertClasses resolver hierarchy nodes).value.1.callCount = package.callCount ∧
      (package.insertClasses resolver hierarchy nodes).value.1.classes.size =
        package.classes.size + (package.insertClasses resolver hierarchy nodes).value.2 := by
  induction nodes generalizing package with
  | nil => exact ⟨rfl, rfl⟩
  | cons node rest ih =>
      have calls := callCount_insertClass resolver hierarchy package node
      have classes := classCount_insertClass resolver hierarchy package node
      rw [value_insertClasses_cons]
      obtain ⟨laterCalls, laterClasses⟩ := ih (package.insertClass resolver hierarchy node).value.1
      refine ⟨laterCalls.trans calls, ?_⟩
      simp only [laterClasses, classes]
      omega

theorem classes_addCall (package : Package) (call : Call) :
    (package.addCall call).classes = package.classes := by
  unfold addCall
  split <;> rfl

theorem classes_insertEdges (package : Package) (edges : List CallEdge) :
    (package.insertEdges resolver edges).1.classes = package.classes := by
  refine insertEdges_induction (motive := fun later => later.classes = package.classes) resolver ?_
    rfl edges
  intro later edge kept
  obtain ⟨registry, call, -, -, -, -, same⟩ := insertEdge_spec resolver later edge
  rw [same, classes_addCall]
  exact kept

end Package

end ProgramModel
