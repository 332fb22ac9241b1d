/-
# ProgramModel.Proofs.Drafts -- what the record of a class comes out as

The calls that a class's record expects are pairs of ids.  What they should be is said
without ids: a supertype *dispatches* a selector to a class (`Dispatches`), and
`expectedEdges` lists the two methods of each such pair by what they are known by.

Drafting a class enters methods into the registry as it goes, so a call that was
recorded early has to survive all that is entered later.  `Draft.Grows` is the step
that carries this: the registry has only grown, and if the calls so far realized some
edges, they now realize those edges and the new ones.  Steps compose
(`Draft.Grows.trans`), and a whole draft realizes exactly the expected edges
(`draftClass_realizes`).
-/
import ProgramModel.Build.Hierarchy
import ProgramModel.Proofs.Registry
import ProgramModel.Proofs.Supertypes

namespace ProgramModel

set_option autoImplicit false

/-! ## What is expected -/

/-- Dispatch may start or end at the declaration: it is neither static nor private, and initializes
neither an object nor a class. -/
def MethodDeclaration.OpenToDispatch (method : MethodDeclaration) : Prop :=
  method.isStatic = false ∧ method.isPrivate = false ∧
    ¬ "<init>".toList <+: method.selector.toList ∧ ¬ "<clinit>".toList <+: method.selector.toList

theorem MethodDeclaration.isOverridable_iff {method : MethodDeclaration} :
    method.isOverridable = true ↔ method.OpenToDispatch := by
  simp only [isOverridable, isInitializer, OpenToDispatch, Bool.and_eq_true, Bool.not_eq_true',
    ← Bool.not_eq_true, Bool.or_eq_true, not_or, and_assoc, List.isPrefixOf_iff_prefix]

/-- The declaration is the first one of the selector in the class. -/
def ClassNode.FirstDeclares (node : ClassNode) (selector : String) (method : MethodDeclaration) :
    Prop :=
  ∃ before after, node.methods = before ++ method :: after ∧ method.selector = selector ∧
    ∀ earlier ∈ before, earlier.selector ≠ selector

theorem ClassNode.declares?_eq_some_iff {node : ClassNode} {selector : String}
    {method : MethodDeclaration} :
    node.declares? selector = some method ↔ node.FirstDeclares selector method :=
  find?_key_eq_some_iff

namespace ClassHierarchy

/-- The supertypes from which edges of each kind lead. -/
def HasSupertype (hierarchy : ClassHierarchy) (node : ClassNode) : ExpectedKind → ClassNode → Prop
  | .override => hierarchy.HasSuperclass node
  | .implements => hierarchy.HasInterface node

/-- A call to the selector in the supertype may arrive in the class: the class is no interface,
some declaration of the selector in it has a body and is open to dispatch, and so is the first
declaration of the selector in the supertype. -/
def Dispatches (hierarchy : ClassHierarchy) (node supertype : ClassNode) (selector : String)
    (kind : ExpectedKind) : Prop :=
  node.modifiers.isInterface = false ∧ hierarchy.HasSupertype node kind supertype ∧
    (∃ method ∈ node.methods,
      method.selector = selector ∧ method.isAbstract = false ∧ method.OpenToDispatch) ∧
    ∃ declared, supertype.FirstDeclares selector declared ∧ declared.OpenToDispatch

variable {hierarchy : ClassHierarchy} {node supertype : ClassNode} {kind : ExpectedKind}

/-- The same by what the fields of the two classes come to. -/
theorem dispatches_iff {selector : String} :
    hierarchy.Dispatches node supertype selector kind ↔
      node.isInterface = false ∧ hierarchy.HasSupertype node kind supertype ∧
      (∃ method ∈ node.methods,
        method.selector = selector ∧ method.isAbstract = false ∧ method.isOverridable = true) ∧
      ∃ declared, supertype.declares? selector = some declared ∧
        declared.isOverridable = true := by
  simp only [Dispatches, MethodDeclaration.isOverridable_iff, ClassNode.declares?_eq_some_iff,
    ClassNode.isInterface]

/-- A supertype is what its own name finds. -/
theorem find?_of_hasSupertype (above : hierarchy.HasSupertype node kind supertype) :
    hierarchy.find? supertype.qualifiedName = some supertype := by
  cases kind with
  | override => exact find?_of_links above
  | implements =>
      obtain ⟨-, start, -, way⟩ := above
      exact find?_of_links way

/-- A class is no supertype of itself, nor is another class of its name. -/
theorem qualifiedName_ne_of_hasSupertype (above : hierarchy.HasSupertype node kind supertype) :
    supertype.qualifiedName ≠ node.qualifiedName := by
  cases kind with
  | override => exact qualifiedName_ne_of_links above
  | implements =>
      obtain ⟨-, start, -, way⟩ := above
      exact qualifiedName_ne_of_links way

/-- A supertype is of one kind: what is a superclass is no interface. -/
theorem HasSupertype.kind_unique {other : ExpectedKind}
    (first : hierarchy.HasSupertype node kind supertype)
    (second : hierarchy.HasSupertype node other supertype) : kind = other := by
  cases kind with
  | override =>
      cases other with
      | override => rfl
      | implements => exact absurd first second.1
  | implements =>
      cases other with
      | override => exact absurd second first.1
      | implements => rfl

theorem mem_candidates_iff :
    (supertype, kind) ∈ (hierarchy.supertypes node).candidates ↔
      hierarchy.HasSupertype node kind supertype := by
  simp only [Supertypes.candidates, List.mem_append, List.mem_map, Prod.mk.injEq]
  cases kind with
  | override => simp [HasSupertype, mem_superclasses_iff]
  | implements => simp [HasSupertype, mem_interfaces_iff]

theorem mem_sources_iff {selector : String} :
    (supertype, kind) ∈ (hierarchy.supertypes node).sources selector ↔
      hierarchy.HasSupertype node kind supertype ∧
        ∃ declared, supertype.declares? selector = some declared ∧
          declared.isOverridable = true := by
  rw [Supertypes.sources, List.mem_filter, mem_candidates_iff]
  cases supertype.declares? selector <;> simp

end ClassHierarchy

/-- An expected call by what its two methods are known by. -/
structure ExpectedEdge where
  source : MethodIdentity
  target : MethodIdentity
  kind : ExpectedKind

namespace ArtifactResolver

variable (resolver : ArtifactResolver) (hierarchy : ClassHierarchy) (node : ClassNode)

/-- The edge from the selector in a supertype to the selector in the class. -/
def expectedEdge (selector : String) (supertype : ClassNode × ExpectedKind) : ExpectedEdge where
  source := resolver.identify (supertype.1.methodReference selector)
  target := resolver.identify (node.methodReference selector)
  kind := supertype.2

/-- The edges to one declaration of the class. -/
def edgesTo (method : MethodDeclaration) : List ExpectedEdge :=
  if node.isDispatchTarget method then
    ((hierarchy.supertypes node).sources method.selector).map
      (resolver.expectedEdge node method.selector)
  else []

/-- The edges to all declarations of the class. -/
def expectedEdges : List ExpectedEdge := node.methods.flatMap (resolver.edgesTo hierarchy node)

variable {resolver hierarchy node}

/-- **The edges are the dispatches.** -/
theorem mem_expectedEdges_iff {edge : ExpectedEdge} :
    edge ∈ resolver.expectedEdges hierarchy node ↔ ∃ supertype selector,
      hierarchy.Dispatches node supertype selector edge.kind ∧
        edge.source = resolver.identify (supertype.methodReference selector) ∧
        edge.target = resolver.identify (node.methodReference selector) := by
  simp only [expectedEdges, edgesTo, List.mem_flatMap]
  constructor
  · rintro ⟨method, declared, there⟩
    split at there
    · rename_i target
      obtain ⟨⟨supertype, kind⟩, source, rfl⟩ := List.mem_map.mp there
      obtain ⟨above, open_⟩ := ClassHierarchy.mem_sources_iff.mp source
      simp only [ClassNode.isDispatchTarget, Bool.and_eq_true, Bool.not_eq_true'] at target
      exact ⟨supertype, method.selector, ClassHierarchy.dispatches_iff.mpr ⟨target.1.1, above,
        ⟨method, declared, rfl, target.1.2, target.2⟩, open_⟩, rfl, rfl⟩
    · cases there
  · rintro ⟨supertype, selector, dispatches, source, target⟩
    obtain ⟨noInterface, above, ⟨method, declared, rfl, body, free⟩, open_⟩ :=
      ClassHierarchy.dispatches_iff.mp dispatches
    refine ⟨method, declared, ?_⟩
    rw [if_pos (by simp [ClassNode.isDispatchTarget, noInterface, body, free])]
    refine List.mem_map.mpr ⟨(supertype, edge.kind),
      ClassHierarchy.mem_sources_iff.mpr ⟨above, open_⟩, ?_⟩
    cases edge
    simp only [expectedEdge] at source target ⊢
    rw [source, target]

theorem expectedEdge_mem {supertype : ClassNode} {selector : String} {kind : ExpectedKind}
    (dispatches : hierarchy.Dispatches node supertype selector kind) :
    resolver.expectedEdge node selector (supertype, kind) ∈
      resolver.expectedEdges hierarchy node :=
  mem_expectedEdges_iff.mpr ⟨supertype, selector, dispatches, rfl, rfl⟩

end ArtifactResolver

/-! ## Calls and the edges that they realize -/

namespace MethodRegistry

/-- The call leads between the methods of the edge. -/
def DenotesCall (registry : MethodRegistry) (call : ExpectedCall) (edge : ExpectedEdge) : Prop :=
  registry.Denotes call.source edge.source ∧ registry.Denotes call.target edge.target ∧
    call.kind = edge.kind

/-- Every call denotes one of the edges, and every edge is denoted by a call. -/
structure Realizes (registry : MethodRegistry) (calls : SortedSet ExpectedCall)
    (edges : List ExpectedEdge) : Prop where
  sound : ∀ call ∈ calls, ∃ edge ∈ edges, registry.DenotesCall call edge
  complete : ∀ edge ∈ edges, ∃ call ∈ calls, registry.DenotesCall call edge

variable {registry later : MethodRegistry} {calls : SortedSet ExpectedCall}
  {edges : List ExpectedEdge} {call other : ExpectedCall} {edge : ExpectedEdge}

theorem DenotesCall.of_extends (denotes : registry.DenotesCall call edge)
    (grown : later.Extends registry) : later.DenotesCall call edge :=
  ⟨denotes.1.of_extends grown, denotes.2.1.of_extends grown, denotes.2.2⟩

theorem DenotesCall.call_unique (first : registry.DenotesCall call edge)
    (second : registry.DenotesCall other edge) : call = other := by
  have sources := first.1.id_unique second.1
  have targets := first.2.1.id_unique second.2.1
  have kinds := first.2.2.trans second.2.2.symm
  cases call; cases other
  simp_all

theorem realizes_empty (registry : MethodRegistry) :
    registry.Realizes (∅ : SortedSet ExpectedCall) [] :=
  ⟨fun call there => absurd there (SortedSet.not_mem_empty call), by simp⟩

theorem Realizes.of_extends (realizes : registry.Realizes calls edges)
    (grown : later.Extends registry) : later.Realizes calls edges where
  sound call there := by
    obtain ⟨edge, listed, denotes⟩ := realizes.sound call there
    exact ⟨edge, listed, denotes.of_extends grown⟩
  complete edge listed := by
    obtain ⟨call, there, denotes⟩ := realizes.complete edge listed
    exact ⟨call, there, denotes.of_extends grown⟩

theorem Realizes.insert (realizes : registry.Realizes calls edges)
    (denotes : registry.DenotesCall call edge) :
    registry.Realizes (calls.insert call) (edges ++ [edge]) where
  sound other there := by
    rcases SortedSet.mem_insert.mp there with rfl | old
    · exact ⟨edge, by simp, denotes⟩
    · obtain ⟨earlier, listed, same⟩ := realizes.sound other old
      exact ⟨earlier, by simp [listed], same⟩
  complete another listed := by
    rcases List.mem_append.mp listed with old | last
    · obtain ⟨earlier, there, same⟩ := realizes.complete another old
      exact ⟨earlier, SortedSet.mem_insert.mpr (.inr there), same⟩
    · obtain rfl : another = edge := by simpa using last
      exact ⟨call, SortedSet.mem_insert.mpr (.inl rfl), denotes⟩

/-- A set of calls that realizes edges has no other members than the calls that denote one. -/
theorem Realizes.mem_iff (realizes : registry.Realizes calls edges) :
    call ∈ calls ↔ ∃ edge ∈ edges, registry.DenotesCall call edge := by
  constructor
  · exact realizes.sound call
  · rintro ⟨edge, listed, denotes⟩
    obtain ⟨member, there, same⟩ := realizes.complete edge listed
    rwa [denotes.call_unique same]

end MethodRegistry

/-! ## Drafts -/

namespace Package

open MethodRegistry

namespace Draft

/-- The next draft has the methods of the draft, and its calls realize the given edges beside
those that the draft's calls realized. -/
structure Grows (draft next : Draft) (edges : List ExpectedEdge) : Prop where
  methods : next.methods.Extends draft.methods
  calls : ∀ earlier, draft.methods.Realizes draft.record.expectedCalls earlier →
    next.methods.Realizes next.record.expectedCalls (earlier ++ edges)

theorem Grows.refl (draft : Draft) : draft.Grows draft [] :=
  ⟨Extends.refl _, fun _ realizes => by simpa using realizes⟩

theorem Grows.trans {draft next last : Draft} {first second : List ExpectedEdge}
    (before : draft.Grows next first) (after : next.Grows last second) :
    draft.Grows last (first ++ second) where
  methods := after.methods.trans before.methods
  calls earlier realizes := by
    rw [← List.append_assoc]
    exact after.calls _ (before.calls _ realizes)

variable (resolver : ArtifactResolver) (hierarchy : ClassHierarchy) (node : ClassNode)

theorem expect_grows {draft : Draft} {selector : String} {target : MethodId}
    (denotes : draft.methods.Denotes target (resolver.identify (node.methodReference selector)))
    (candidate : ClassNode × ExpectedKind) :
    draft.Grows (draft.expect resolver selector target candidate)
      [resolver.expectedEdge node selector candidate] := by
  have grown := resolver.resolve_extends draft.methods (candidate.1.methodReference selector)
  refine ⟨grown, fun earlier realizes => (realizes.of_extends grown).insert ?_⟩
  exact ⟨resolver.resolve_denotes _ _, denotes.of_extends grown, rfl⟩

theorem foldl_expect_grows {draft : Draft} {selector : String} {target : MethodId}
    (denotes : draft.methods.Denotes target (resolver.identify (node.methodReference selector)))
    (candidates : List (ClassNode × ExpectedKind)) :
    draft.Grows (candidates.foldl (Draft.expect resolver selector target) draft)
      (candidates.map (resolver.expectedEdge node selector)) := by
  induction candidates generalizing draft with
  | nil => exact Grows.refl draft
  | cons candidate rest ih =>
      have first := expect_grows resolver node denotes candidate
      exact first.trans (ih (denotes.of_extends first.methods))

/-- Entering a declaration enters the edges to it. -/
theorem declare_grows (draft : Draft) (method : MethodDeclaration) :
    draft.Grows (draft.declare resolver node (hierarchy.supertypes node) method)
      (resolver.edgesTo hierarchy node method) := by
  let resolved := resolver.resolve draft.methods (node.methodReference method.selector)
  let entered : Draft :=
    { methods := resolved.2.tagKind resolved.1 (node.kindOf method)
      record := { draft.record with methods := draft.record.methods.insert method.selector } }
  -- The kind of a method is metadata, so tagging it leaves what its id denotes.
  have grown : entered.methods.Extends draft.methods :=
    (tagKind_extends _ _ _).trans (resolver.resolve_extends _ _)
  have start : draft.Grows entered [] :=
    ⟨grown, fun earlier realizes => by simpa using realizes.of_extends grown⟩
  have denotes : entered.methods.Denotes resolved.1
      (resolver.identify (node.methodReference method.selector)) :=
    (resolver.resolve_denotes _ _).of_extends (tagKind_extends _ _ _)
  by_cases target : node.isDispatchTarget method = true
  · have calls := foldl_expect_grows resolver node denotes
      ((hierarchy.supertypes node).sources method.selector)
    simpa only [declare, ArtifactResolver.edgesTo, if_pos target, List.nil_append] using
      start.trans calls
  · simpa only [declare, ArtifactResolver.edgesTo, if_neg target] using start

theorem foldl_declare_grows (draft : Draft) (methods : List MethodDeclaration) :
    draft.Grows (methods.foldl (Draft.declare resolver node (hierarchy.supertypes node)) draft)
      (methods.flatMap (resolver.edgesTo hierarchy node)) := by
  induction methods generalizing draft with
  | nil => exact Grows.refl draft
  | cons method rest ih =>
      rw [List.flatMap_cons]
      exact (declare_grows resolver hierarchy node draft method).trans (ih _)

end Draft

variable (resolver : ArtifactResolver) (hierarchy : ClassHierarchy) (node : ClassNode)
  (methods : MethodRegistry)

theorem draftClass_extends :
    (draftClass resolver hierarchy node methods).methods.Extends methods :=
  (Draft.foldl_declare_grows resolver hierarchy node _ node.methods).methods

/-- **The expected calls of a drafted class realize exactly its expected edges.** -/
theorem draftClass_realizes :
    (draftClass resolver hierarchy node methods).methods.Realizes
      (draftClass resolver hierarchy node methods).record.expectedCalls
      (resolver.expectedEdges hierarchy node) :=
  (Draft.foldl_declare_grows resolver hierarchy node _ node.methods).calls []
    (realizes_empty methods)

end Package

end ProgramModel
