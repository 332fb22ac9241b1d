/-
# ProgramModel.Proofs.CallPhase -- what call graphs leave as it was, and what they add

A call graph enters methods and calls, and nothing else.  It appends to the registry: all
methods stay as they are, metadata included, and nothing is noted about those that come in
behind them (`insertEdges_appends`).  It keeps the calls that there are, each in its half, and
adds those that carry its edges (`calls_insertEdges`).

So an end of an edge that is known already is recorded under the id that it has.  In
particular a call to a method that a hierarchy has declared points at the method with the tag
of its kind (`callPhase_keepsIdentities`).
-/
import ProgramModel.Proofs.Declarations

namespace ProgramModel

set_option autoImplicit false

namespace Package

open MethodRegistry

variable (resolver : ArtifactResolver) {package later : Package}

/-! ## Methods -/

/-- What no call changes. -/
theorem methods_addCall (package : Package) (call : Call) :
    (package.addCall call).methods = package.methods := by
  unfold addCall
  split <;> rfl

theorem artifacts_addCall (package : Package) (call : Call) :
    (package.addCall call).artifacts = package.artifacts := by
  unfold addCall
  split <;> rfl

theorem insertEdge_appends (package : Package) (edge : CallEdge) :
    (package.insertEdge resolver edge).1.methods.Appends package.methods := by
  let first := resolver.resolve package.methods edge.caller
  have source : first.2.Appends package.methods := intern_appends package.methods _
  have target : (resolver.resolve first.2 edge.callee).2.Appends first.2 := intern_appends first.2 _
  have methods : (package.insertEdge resolver edge).1.methods =
      (resolver.resolve first.2 edge.callee).2 := methods_addCall _ _
  rw [methods]
  exact target.trans source

/-- **A call graph only adds methods, and notes nothing about them.** -/
theorem insertEdges_appends (package : Package) (edges : List CallEdge) :
    (package.insertEdges resolver edges).1.methods.Appends package.methods := by
  refine insertEdges_induction (motive := fun later => later.methods.Appends package.methods)
    resolver ?_ (Appends.refl package.methods) edges
  intro later edge appends
  exact (insertEdge_appends resolver later edge).trans appends

theorem artifacts_insertEdges (package : Package) (edges : List CallEdge) :
    (package.insertEdges resolver edges).1.artifacts = package.artifacts := by
  refine insertEdges_induction (motive := fun later => later.artifacts = package.artifacts)
    resolver ?_ rfl edges
  intro later edge kept
  exact (artifacts_addCall _ _).trans kept

/-! ## Calls -/

/-- The call leads between the methods that the edge names, with its dispatch. -/
structure Carries (resolver : ArtifactResolver) (package : Package) (call : Call)
    (edge : CallEdge) : Prop where
  source : package.methods.Denotes call.source (resolver.identify edge.caller)
  target : package.methods.Denotes call.target (resolver.identify edge.callee)
  type : call.type = edge.dispatch.callType

variable {resolver} {call : Call} {edge : CallEdge}

theorem Carries.of_extends (carries : package.Carries resolver call edge)
    (grown : later.methods.Extends package.methods) : later.Carries resolver call edge :=
  ⟨carries.source.of_extends grown, carries.target.of_extends grown, carries.type⟩

/-- The later package has the calls of the earlier one, each in its half. -/
structure KeepsCalls (later earlier : Package) : Prop where
  resolved : ∀ call ∈ earlier.resolvedCalls, call ∈ later.resolvedCalls
  unresolved : ∀ call ∈ earlier.unresolvedCalls, call ∈ later.unresolvedCalls

theorem KeepsCalls.refl (package : Package) : package.KeepsCalls package :=
  ⟨fun _ there => there, fun _ there => there⟩

theorem KeepsCalls.trans {earlier : Package} (after : later.KeepsCalls package)
    (before : package.KeepsCalls earlier) : later.KeepsCalls earlier :=
  ⟨fun call there => after.resolved call (before.resolved call there),
    fun call there => after.unresolved call (before.unresolved call there)⟩

theorem KeepsCalls.calls {earlier : Package} (keeps : later.KeepsCalls earlier)
    (there : call ∈ earlier.calls) : call ∈ later.calls := by
  rcases List.mem_append.mp there with resolved | unresolved
  · exact List.mem_append_left _ (keeps.resolved call resolved)
  · exact List.mem_append_right _ (keeps.unresolved call unresolved)

theorem KeepsCalls.addCall {earlier : Package} (keeps : later.KeepsCalls earlier) (call : Call) :
    (later.addCall call).KeepsCalls earlier := by
  unfold Package.addCall
  split
  · exact ⟨fun old there => SortedSet.mem_insert.mpr (.inr (keeps.resolved old there)),
      keeps.unresolved⟩
  · exact ⟨keeps.resolved,
      fun old there => SortedSet.mem_insert.mpr (.inr (keeps.unresolved old there))⟩

theorem mem_calls_addCall {other : Call} :
    other ∈ (package.addCall call).calls ↔ other = call ∨ other ∈ package.calls := by
  have half (calls : SortedSet Call) : other ∈ calls.toList ↔ other ∈ calls := Iff.rfl
  unfold addCall calls
  split
  · simp only [List.mem_append, half, SortedSet.mem_insert, or_assoc]
  · simp only [List.mem_append, half, SortedSet.mem_insert, or_left_comm]

variable (resolver)

theorem insertEdges_keepsCalls (package : Package) (edges : List CallEdge) :
    (package.insertEdges resolver edges).1.KeepsCalls package := by
  refine insertEdges_induction (motive := fun later => later.KeepsCalls package) resolver ?_
    (KeepsCalls.refl package) edges
  intro later edge keeps
  obtain ⟨registry, call, -, -, -, -, same⟩ := insertEdge_spec resolver later edge
  have before : KeepsCalls { later with methods := registry } package :=
    ⟨keeps.resolved, keeps.unresolved⟩
  rw [same]
  exact before.addCall call

/-- An edge adds the call that carries it, and no other. -/
theorem calls_insertEdge (package : Package) (edge : CallEdge) :
    ∃ call, (package.insertEdge resolver edge).1.Carries resolver call edge ∧
      ∀ other, other ∈ (package.insertEdge resolver edge).1.calls ↔
        other = call ∨ other ∈ package.calls := by
  obtain ⟨registry, call, -, source, target, type, same⟩ := insertEdge_spec resolver package edge
  have methods := methods_addCall { package with methods := registry } call
  rw [same]
  refine ⟨call, ⟨?_, ?_, type⟩, fun other => mem_calls_addCall⟩
  · rw [methods]
    exact source
  · rw [methods]
    exact target

/-- **The calls that a call graph adds are those that carry its edges.** -/
theorem calls_insertEdges (package : Package) (edges : List CallEdge) :
    let later := (package.insertEdges resolver edges).1
    (∀ edge ∈ edges, ∃ call ∈ later.calls, later.Carries resolver call edge) ∧
    (∀ call ∈ later.calls,
      call ∈ package.calls ∨ ∃ edge ∈ edges, later.Carries resolver call edge) := by
  induction edges generalizing package with
  | nil =>
      refine ⟨?_, fun call there => .inl there⟩
      intro edge listed
      cases listed
  | cons edge rest ih =>
      rw [insertEdges_cons]
      let next := (package.insertEdge resolver edge).1
      obtain ⟨first, carries, members⟩ := calls_insertEdge resolver package edge
      obtain ⟨each, only⟩ := ih next
      -- What carries the first edge still does after the others.
      have lasts : (next.insertEdges resolver rest).1.Carries resolver first edge :=
        carries.of_extends (insertEdges_extends resolver next rest).methods
      have stays : first ∈ (next.insertEdges resolver rest).1.calls :=
        (insertEdges_keepsCalls resolver next rest).calls ((members first).mpr (.inl rfl))
      constructor
      · intro other listed
        rcases List.mem_cons.mp listed with rfl | later
        · exact ⟨first, stays, lasts⟩
        · exact each other later
      · intro call there
        rcases only call there with before | ⟨other, later, same⟩
        · rcases (members call).mp before with rfl | old
          · exact .inr ⟨edge, List.mem_cons_self, lasts⟩
          · exact .inl old
        · exact .inr ⟨other, List.mem_cons_of_mem _ later, same⟩

/-! ## Methods that were declared -/

variable {id : MethodId} {method : Method}

/-- **A call graph leaves settled methods alone.** -/
theorem Settled.insertEdges (settled : package.Settled id method) (edges : List CallEdge) :
    (package.insertEdges resolver edges).1.Settled id method := by
  obtain ⟨record, recorded⟩ := settled.recorded
  have grown := insertEdges_extends resolver package edges
  exact ⟨(insertEdges_appends resolver package edges).get?_kept settled.there, record,
    grown.classes _ _ recorded⟩

end Package

/-- Whether the operation edits metadata. -/
def Operation.isEdit : Operation → Bool
  | .editMetadata .. => true
  | _ => false

namespace Ledger

variable {ledger : Ledger} {id : MethodId} {method : Method}

/-- Insertions leave settled methods alone. -/
theorem settled_apply (settled : ledger.package.Settled id method) {operation : Operation}
    (inserts : operation.isEdit = false) : (ledger.apply operation).package.Settled id method := by
  cases operation with
  | insertHierarchy resolver hierarchy =>
      exact settled.insertClasses resolver hierarchy hierarchy.classes
  | insertCallGraph resolver graph => exact settled.insertEdges resolver graph.edges
  | addArtifact artifact => exact ⟨settled.there, settled.recorded⟩
  | editMetadata id change => cases inserts

theorem settled_foldl_apply (settled : ledger.package.Settled id method)
    {operations : List Operation} (insert : ∀ operation ∈ operations, operation.isEdit = false) :
    (operations.foldl apply ledger).package.Settled id method := by
  induction operations generalizing ledger with
  | nil => exact settled
  | cons operation rest ih =>
      have first := settled_apply settled (insert operation List.mem_cons_self)
      exact ih first fun other later => insert other (List.mem_cons_of_mem _ later)

/-- One of the operations has declared the method with this kind: it has inserted a hierarchy with
a class that had no record, the first one of its name there, and the last declaration of the
selector in the class is of this kind.  No operation after it has edited metadata. -/
def Declares (operations : List Operation) (identity : MethodIdentity) (kind : MethodKind) : Prop :=
  ∃ earlier resolver hierarchy later node selector declared,
    operations = earlier ++ .insertHierarchy resolver hierarchy :: later ∧
    (∀ operation ∈ later, operation.isEdit = false) ∧
    (run earlier).package.classRecord? node.qualifiedName = none ∧
    hierarchy.first? node.qualifiedName = some node ∧
    node.lastDeclared? selector = some declared ∧
    identity = resolver.identify (node.methodReference selector) ∧ kind = node.kindOf declared

/-- **What was declared is in the registry, with its kind.** -/
theorem get?_of_declares {operations : List Operation} {identity : MethodIdentity}
    {kind : MethodKind} (declares : Declares operations identity kind) :
    ∃ id method, (run operations).package.methods.get? id = some method ∧
      method.identity = identity ∧ method.kind = some kind.text := by
  obtain ⟨earlier, resolver, hierarchy, later, node, selector, declared, rfl, insert, absent, first,
    last, rfl, rfl⟩ := declares
  obtain ⟨id, method, settled, same, noted⟩ :=
    Package.insertClasses_settles resolver hierarchy absent first last
  have lasts : (run (earlier ++ .insertHierarchy resolver hierarchy :: later)).package.Settled id
      method := by
    rw [run, List.foldl_append, List.foldl_cons]
    exact settled_foldl_apply settled insert
  exact ⟨id, method, lasts.there, same, noted⟩

end Ledger

/-- **The call phase keeps what the hierarchies have entered.**  From whatever state operations
lead to, a call graph leaves the methods at their ids as they are, and the artifacts and classes.
It notes nothing about the methods that it adds, it loses no call, and the calls that it adds are
those of its edges.  An end of an edge that is known is recorded under the id that it has; so if
the callee was declared, the call points at the method that has the tag of its kind. -/
theorem callPhase_keepsIdentities (operations : List Operation) (resolver : ArtifactResolver)
    (graph : CallGraph) :
    let before := (Ledger.run operations).package
    let after := (before.insertCallGraph resolver graph).value.1
    before.methods.methods <+: after.methods.methods ∧
    (∀ id method, after.methods.get? id = some method → before.methods.get? id = none →
      method.metadata = ∅) ∧
    after.artifacts = before.artifacts ∧ after.classes = before.classes ∧
    after.KeepsCalls before ∧
    (∀ call ∈ after.calls,
      call ∈ before.calls ∨ ∃ edge ∈ graph.edges, after.Carries resolver call edge) ∧
    (∀ edge ∈ graph.edges, ∃ call ∈ after.calls, after.Carries resolver call edge ∧
      (∀ id, before.methods.Denotes id (resolver.identify edge.caller) → call.source = id) ∧
      (∀ id, before.methods.Denotes id (resolver.identify edge.callee) → call.target = id) ∧
      ∀ kind, Ledger.Declares operations (resolver.identify edge.callee) kind →
        ∃ method, before.methods.get? call.target = some method ∧
          after.methods.get? call.target = some method ∧ method.kind = some kind.text) := by
  intro before after
  have appends : after.methods.Appends before.methods :=
    Package.insertEdges_appends resolver before graph.edges
  obtain ⟨each, only⟩ := Package.calls_insertEdges resolver before graph.edges
  refine ⟨appends.prefix_methods, fun id method there absent => appends.get?_new there absent,
    Package.artifacts_insertEdges resolver before graph.edges,
    Package.classes_insertEdges resolver before graph.edges,
    Package.insertEdges_keepsCalls resolver before graph.edges, only, ?_⟩
  intro edge listed
  obtain ⟨call, there, carries⟩ := each edge listed
  have source (id : MethodId) (known : before.methods.Denotes id (resolver.identify edge.caller)) :
      call.source = id :=
    carries.source.id_unique (known.of_extends appends.extends)
  have target (id : MethodId) (known : before.methods.Denotes id (resolver.identify edge.callee)) :
      call.target = id :=
    carries.target.id_unique (known.of_extends appends.extends)
  refine ⟨call, there, carries, source, target, ?_⟩
  intro kind declares
  obtain ⟨id, method, entered, same, noted⟩ := Ledger.get?_of_declares declares
  have points : call.target = id :=
    target id (MethodRegistry.denotes_iff.mpr ⟨method, entered, same⟩)
  rw [points]
  exact ⟨method, entered, appends.get?_kept entered, noted⟩

/-- A call from a class that no hierarchy knows to one that is declared there under another
spelling of its name. -/
def strayGraph : CallGraph where
  edges := [⟨⟨⟨"Main", .extension⟩, "main()V"⟩, ⟨⟨" a.A", .primordial⟩, "run()V"⟩, .virtual⟩]

/-- The call points at the declared method. -/
theorem callPhase_keepsIdentities_declared :
    let before :=
      (Ledger.run [.insertHierarchy .unknowing Package.mutualSuperclasses]).package
    ∃ call ∈ (before.insertCallGraph .unknowing strayGraph).value.1.calls, ∃ method,
      before.methods.get? call.target = some method ∧
      method.kind = some MethodKind.implementation.text := by
  have declares : Ledger.Declares [.insertHierarchy .unknowing Package.mutualSuperclasses]
      (ArtifactResolver.unknowing.identify strayGraph.edges[0].callee) .implementation := by
    refine ⟨[], .unknowing, Package.mutualSuperclasses, [], Package.mutualSuperclasses.classes[0],
      "run()V", { selector := "run()V" }, rfl, List.forall_mem_nil _, rfl, ?_, ?_, ?_, rfl⟩
    all_goals decide +kernel
  obtain ⟨-, -, -, -, -, -, each⟩ := callPhase_keepsIdentities
    [.insertHierarchy .unknowing Package.mutualSuperclasses] .unknowing strayGraph
  obtain ⟨call, there, -, -, -, tagged⟩ := each _ List.mem_cons_self
  obtain ⟨method, entered, -, kind⟩ := tagged .implementation declares
  exact ⟨call, there, method, entered, kind⟩

end ProgramModel
