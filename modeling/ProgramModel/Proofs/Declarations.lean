/-
# ProgramModel.Proofs.Declarations -- what a declaration notes about a method stays noted

Ids come and go with the order of the inputs, so what is noted about methods is said of their
identities: a registry notes something about an identity, and nothing about one that it does not
hold (`MethodRegistry.noted`).  Then entering a method changes nothing at all (`noted_appends`), and
tagging one changes what is noted about its identity and no other (`noted_tagKind`).

Drafting a class tags each method that the class declares with the kind of the declaration; of
several declarations of one selector the last one counts (`Draft.noted_foldl_declare`).  After that
no class touches the tag any more.  A method is `Settled` once its class has a record: a class of
that name is not drafted again, and a class of another name tags methods of its own
(`Settled.insertClasses`).  So a hierarchy settles all that its new classes declare, noted to be of
the declared kinds (`insertClasses_settles`).
-/
import ProgramModel.Proofs.Interning
import ProgramModel.Proofs.Ledger

namespace ProgramModel

set_option autoImplicit false

/-- The last declaration of a selector. -/
def ClassNode.lastDeclared? (node : ClassNode) (selector : String) : Option MethodDeclaration :=
  node.methods.reverse.find? (fun method => method.selector == selector)

/-! ## What a registry notes about identities -/

/-- Metadata with a kind noted in it, if one is given. -/
def Metadata.tagged (metadata : Metadata) : Option MethodKind → Metadata
  | some kind => metadata.insert Metadata.kindKey kind.text
  | none => metadata

@[simp] theorem Metadata.tagged_none (metadata : Metadata) : metadata.tagged none = metadata := rfl

/-- A later kind takes the place of an earlier one. -/
theorem Metadata.insert_tagged (metadata : Metadata) (earlier : Option MethodKind)
    (kind : MethodKind) :
    (metadata.tagged earlier).insert Metadata.kindKey kind.text = metadata.tagged (some kind) := by
  cases earlier with
  | none => rfl
  | some earlier => exact SortedMap.insert_insert metadata _ _ _

theorem Metadata.get?_tagged (metadata : Metadata) (kind : MethodKind) :
    (metadata.tagged (some kind)).get? Metadata.kindKey = some kind.text :=
  SortedMap.get?_insert_self _ _ _

namespace MethodRegistry

/-- What is noted about the method with an identity; nothing, if there is none. -/
def noted (registry : MethodRegistry) (identity : MethodIdentity) : Metadata :=
  (((registry.find? identity).bind registry.get?).map Method.metadata).getD ∅

variable {registry later : MethodRegistry} {id : MethodId} {identity entered : MethodIdentity}
  {method : Method}

theorem noted_of_get? (there : registry.get? id = some method) :
    registry.noted method.identity = method.metadata := by
  have denotes : registry.Denotes id method.identity := denotes_iff.mpr ⟨method, there, rfl⟩
  simp [noted, find?_eq_some_iff.mpr denotes, there]

theorem noted_of_not_mem (absent : identity ∉ registry.identities) :
    registry.noted identity = ∅ := by
  simp [noted, find?_eq_none_iff.mpr absent]

/-- An identity is that of a method, or nothing is noted about it. -/
theorem noted_cases (registry : MethodRegistry) (identity : MethodIdentity) :
    (∃ id method, registry.get? id = some method ∧ method.identity = identity) ∨
      identity ∉ registry.identities := by
  cases found : registry.find? identity with
  | none => exact .inr (find?_eq_none_iff.mp found)
  | some id =>
      obtain ⟨method, there, same⟩ := denotes_iff.mp (find?_eq_some_iff.mp found)
      exact .inl ⟨id, method, there, same⟩

/-- **Nothing is noted about a method by entering it.** -/
theorem noted_appends (appends : later.Appends registry) (identity : MethodIdentity) :
    later.noted identity = registry.noted identity := by
  obtain ⟨id, method, there, rfl⟩ | absent := registry.noted_cases identity
  · rw [noted_of_get? there, noted_of_get? (appends.get?_kept there)]
  · rw [noted_of_not_mem absent]
    obtain ⟨id, method, there, rfl⟩ | still := later.noted_cases identity
    · -- The method is new, for the registry does not hold its identity.
      have new : registry.get? id = none := by
        cases before : registry.get? id with
        | none => rfl
        | some known =>
            obtain rfl := Option.some.inj ((appends.get?_kept before).symm.trans there)
            have denotes := denotes_iff.mpr ⟨known, before, rfl⟩
            exact absurd (List.mem_of_getElem? denotes) absent
      rw [noted_of_get? there, appends.get?_new there new]
    · exact noted_of_not_mem still

/-- **Tagging a method notes its kind about its identity, and nothing about any other.** -/
theorem noted_tagKind (denotes : registry.Denotes id entered) (kind : MethodKind)
    (identity : MethodIdentity) :
    (registry.tagKind id kind).noted identity =
      (registry.noted identity).tagged (if identity = entered then some kind else none) := by
  obtain ⟨place, method, there, rfl⟩ | absent := registry.noted_cases identity
  · have own : registry.Denotes place method.identity := denotes_iff.mpr ⟨method, there, rfl⟩
    have after := noted_of_get?
      (get?_modifyMetadata there id (·.insert Metadata.kindKey kind.text))
    refine after.trans ?_
    rw [noted_of_get? there]
    by_cases same : method.identity = entered
    · have placed : id = place := denotes.id_unique (same ▸ own)
      rw [if_pos placed, if_pos same]
      rfl
    · have apart : id ≠ place := by
        rintro rfl
        exact same (own.identity_unique denotes)
      rw [if_neg apart, if_neg same]
      rfl
  · have other : identity ≠ entered := by
      rintro rfl
      exact absent (List.mem_of_getElem? denotes)
    have still : identity ∉ (registry.tagKind id kind).identities := by
      have same := identities_modifyMetadata registry id (·.insert Metadata.kindKey kind.text)
      rw [tagKind, setMetadata, same]
      exact absent
    rw [noted_of_not_mem still, noted_of_not_mem absent, if_neg other]
    rfl

/-- A kind is noted about methods of the registry only. -/
theorem exists_of_noted {metadata : Metadata} {kind : MethodKind}
    (noted : registry.noted identity = metadata.tagged (some kind)) :
    ∃ id method, registry.get? id = some method ∧ method.identity = identity ∧
      method.kind = some kind.text := by
  obtain ⟨id, method, there, rfl⟩ | absent := registry.noted_cases identity
  · rw [noted_of_get? there] at noted
    refine ⟨id, method, there, rfl, ?_⟩
    rw [Method.kind, noted]
    exact metadata.get?_tagged kind
  · rw [noted_of_not_mem absent] at noted
    have value := metadata.get?_tagged kind
    rw [← noted] at value
    cases value

/-- A method is left alone where ids are kept and no more is noted about its identity. -/
theorem get?_of_noted (grown : later.Extends registry) (there : registry.get? id = some method)
    (same : later.noted method.identity = registry.noted method.identity) :
    later.get? id = some method := by
  have denotes : registry.Denotes id method.identity := denotes_iff.mpr ⟨method, there, rfl⟩
  obtain ⟨kept, found, identity⟩ := denotes_iff.mp (denotes.of_extends grown)
  rw [← identity, noted_of_get? found, identity, noted_of_get? there] at same
  rw [found]
  cases kept
  cases method
  simp_all

end MethodRegistry

/-! ## What a class notes -/

/-- The kind of the last declaration of a selector. -/
def ClassNode.declaredKind? (node : ClassNode) (selector : String) : Option MethodKind :=
  (node.lastDeclared? selector).map node.kindOf

/-- The kind that a class declares for a method, if the method is what the class's own reference
to the selector names. -/
def ArtifactResolver.declaredKind? (resolver : ArtifactResolver) (node : ClassNode)
    (identity : MethodIdentity) : Option MethodKind :=
  if identity = resolver.identify (node.methodReference identity.symbol) then
    node.declaredKind? identity.symbol
  else none

theorem ArtifactResolver.declaredKind?_eq_some_iff {resolver : ArtifactResolver} {node : ClassNode}
    {identity : MethodIdentity} {kind : MethodKind} :
    resolver.declaredKind? node identity = some kind ↔
      identity = resolver.identify (node.methodReference identity.symbol) ∧
        ∃ declared, node.lastDeclared? identity.symbol = some declared ∧
          node.kindOf declared = kind := by
  unfold declaredKind? ClassNode.declaredKind?
  by_cases own : identity = resolver.identify (node.methodReference identity.symbol)
  · rw [if_pos own, Option.map_eq_some_iff]
    exact (and_iff_right own).symm
  · rw [if_neg own]
    exact iff_of_false (Option.some_ne_none kind).symm fun both => own both.1

/-- A class declares kinds for methods of its own name only. -/
theorem ArtifactResolver.declaredKind?_of_ne {resolver : ArtifactResolver} {node : ClassNode}
    {identity : MethodIdentity} (differs : identity.owner ≠ node.qualifiedName) :
    resolver.declaredKind? node identity = none := by
  apply if_neg
  intro same
  exact differs (congrArg MethodIdentity.owner same)

namespace Package

open MethodRegistry

variable (resolver : ArtifactResolver) (hierarchy : ClassHierarchy) (node : ClassNode)

namespace Draft

theorem foldl_expect_appends (draft : Draft) (selector : String) (target : MethodId)
    (candidates : List (ClassNode × ExpectedKind)) :
    (candidates.foldl (Draft.expect resolver selector target) draft).methods.Appends
      draft.methods := by
  induction candidates generalizing draft with
  | nil => exact Appends.refl draft.methods
  | cons candidate rest ih => exact (ih _).trans (intern_appends draft.methods _)

/-- A declaration notes its kind about the method that it declares, and nothing else. -/
theorem noted_declare (draft : Draft) (supertypes : Supertypes) (declared : MethodDeclaration)
    (identity : MethodIdentity) :
    (draft.declare resolver node supertypes declared).methods.noted identity =
      (draft.methods.noted identity).tagged
        (if identity = resolver.identify (node.methodReference declared.selector) then
          some (node.kindOf declared) else none) := by
  let reference := node.methodReference declared.selector
  let resolved := resolver.resolve draft.methods reference
  let entered : Draft :=
    { methods := resolved.2.tagKind resolved.1 (node.kindOf declared)
      record := { draft.record with methods := draft.record.methods.insert declared.selector } }
  have start : entered.methods.noted identity = (draft.methods.noted identity).tagged
      (if identity = resolver.identify reference then some (node.kindOf declared) else none) := by
    have denotes : resolved.2.Denotes resolved.1 (resolver.identify reference) :=
      resolver.resolve_denotes draft.methods reference
    have appends : resolved.2.Appends draft.methods := intern_appends draft.methods _
    show (resolved.2.tagKind resolved.1 (node.kindOf declared)).noted identity = _
    rw [noted_tagKind denotes, noted_appends appends]
  by_cases target : node.isDispatchTarget declared = true
  · have expected := foldl_expect_appends resolver entered declared.selector resolved.1
      (supertypes.sources declared.selector)
    simp only [declare, if_pos target]
    exact (noted_appends expected identity).trans start
  · simp only [declare, if_neg target]
    exact start

/-- **Declarations note the kind of the last one of each selector.** -/
theorem noted_foldl_declare (draft : Draft) (supertypes : Supertypes)
    (methods : List MethodDeclaration) (identity : MethodIdentity) :
    (methods.foldl (Draft.declare resolver node supertypes) draft).methods.noted identity =
      (draft.methods.noted identity).tagged
        (if identity = resolver.identify (node.methodReference identity.symbol) then
          (methods.reverse.find? fun method => method.selector == identity.symbol).map node.kindOf
        else none) := by
  -- The induction takes declarations off the end: the last one has the last word.
  induction methods using List.reverseRecOn with
  | nil => simp [Metadata.tagged]
  | append_singleton earlier final ih =>
      rw [List.foldl_append, List.foldl_cons, List.foldl_nil, noted_declare, ih,
        List.reverse_append, List.reverse_singleton, List.singleton_append, List.find?_cons]
      by_cases same : final.selector = identity.symbol
      · rw [same]
        by_cases own : identity = resolver.identify (node.methodReference identity.symbol)
        · simp only [if_pos own, beq_self_eq_true, Option.map_some]
          exact Metadata.insert_tagged _ _ _
        · simp only [if_neg own]
          rfl
      · have other : identity ≠ resolver.identify (node.methodReference final.selector) := by
          intro clash
          exact same (congrArg MethodIdentity.symbol clash).symm
        rw [if_neg other, beq_eq_false_iff_ne.mpr same, Metadata.tagged_none]

end Draft

/-- **A class that is drafted notes the kinds that it declares.** -/
theorem noted_draftClass (methods : MethodRegistry) (identity : MethodIdentity) :
    (draftClass resolver hierarchy node methods).methods.noted identity =
      (methods.noted identity).tagged (resolver.declaredKind? node identity) :=
  Draft.noted_foldl_declare resolver node _ _ node.methods identity

/-- Methods of other classes are left alone by a draft. -/
theorem get?_draftClass {methods : MethodRegistry} {id : MethodId} {method : Method}
    (there : methods.get? id = some method)
    (elsewhere : method.identity.owner ≠ node.qualifiedName) :
    (draftClass resolver hierarchy node methods).methods.get? id = some method := by
  refine get?_of_noted (draftClass_extends resolver hierarchy node methods) there ?_
  rw [noted_draftClass, ArtifactResolver.declaredKind?_of_ne elsewhere]
  rfl

/-! ## Classes -/

variable {package : Package} {id : MethodId} {method : Method}

/-- The method is at the id, and its class has a record. -/
structure Settled (package : Package) (id : MethodId) (method : Method) : Prop where
  there : package.methods.get? id = some method
  recorded : ∃ record, package.classRecord? method.identity.owner = some record

/-- **A class leaves settled methods alone**: it has no record itself, so they are not its own. -/
theorem Settled.insertClass (settled : package.Settled id method) :
    (package.insertClass resolver hierarchy node).value.1.Settled id method := by
  obtain ⟨record, recorded⟩ := settled.recorded
  have grown := insertClass_extends resolver hierarchy package node
  refine ⟨?_, record, grown.classes _ _ recorded⟩
  rcases insertClass_cases resolver hierarchy package node with ⟨kept, -, same⟩ | ⟨absent, new⟩
  · rw [same]
    exact settled.there
  · rw [new]
    exact get?_draftClass resolver hierarchy node settled.there (ne_of_absent recorded absent)

theorem Settled.insertClasses (settled : package.Settled id method) (nodes : List ClassNode) :
    (package.insertClasses resolver hierarchy nodes).value.1.Settled id method := by
  refine insertClasses_induction (motive := fun package => package.Settled id method) resolver
    hierarchy package ?_ settled nodes
  intro package node settled
  exact settled.insertClass resolver hierarchy node

variable {node}

theorem draftClass_notes (methods : MethodRegistry) {selector : String}
    {declared : MethodDeclaration} (last : node.lastDeclared? selector = some declared) :
    ∃ id method, (draftClass resolver hierarchy node methods).methods.get? id = some method ∧
      method.identity = resolver.identify (node.methodReference selector) ∧
      method.kind = some (node.kindOf declared).text := by
  have declares : resolver.declaredKind? node (resolver.identify (node.methodReference selector)) =
      some (node.kindOf declared) :=
    ArtifactResolver.declaredKind?_eq_some_iff.mpr ⟨rfl, declared, last, rfl⟩
  have noted := noted_draftClass resolver hierarchy node methods
    (resolver.identify (node.methodReference selector))
  rw [declares] at noted
  exact exists_of_noted noted

/-- **A class without a record settles what it declares**, noted to be of the declared kinds. -/
theorem insertClass_settles (absent : package.classRecord? node.qualifiedName = none)
    {selector : String} {declared : MethodDeclaration}
    (last : node.lastDeclared? selector = some declared) :
    ∃ id method, (package.insertClass resolver hierarchy node).value.1.Settled id method ∧
      method.identity = resolver.identify (node.methodReference selector) ∧
      method.kind = some (node.kindOf declared).text := by
  obtain ⟨record, recorded, -, -⟩ := insertClass_records resolver hierarchy absent
  rcases insertClass_cases resolver hierarchy package node with ⟨kept, there, -⟩ | ⟨-, new⟩
  · rw [absent] at there
    cases there
  · rw [new] at recorded ⊢
    obtain ⟨id, method, there, identity, kind⟩ :=
      draftClass_notes resolver hierarchy package.methods last
    refine ⟨id, method, ⟨there, record, ?_⟩, identity, kind⟩
    rw [identity]
    exact recorded

/-- **So does a hierarchy**, for the first class of each name that has no record. -/
theorem insertClasses_settles {nodes : List ClassNode}
    (absent : package.classRecord? node.qualifiedName = none)
    (first : nodes.find? (fun other => other.qualifiedName == node.qualifiedName) = some node)
    {selector : String} {declared : MethodDeclaration}
    (last : node.lastDeclared? selector = some declared) :
    ∃ id method, (package.insertClasses resolver hierarchy nodes).value.1.Settled id method ∧
      method.identity = resolver.identify (node.methodReference selector) ∧
      method.kind = some (node.kindOf declared).text := by
  induction nodes generalizing package with
  | nil => cases first
  | cons head rest ih =>
      rw [value_insertClasses_cons]
      by_cases same : head.qualifiedName = node.qualifiedName
      · obtain rfl : head = node := by simpa [List.find?_cons, same] using first
        obtain ⟨id, method, settled, identity, kind⟩ :=
          insertClass_settles resolver hierarchy absent last
        exact ⟨id, method, settled.insertClasses resolver hierarchy rest, identity, kind⟩
      · have later : rest.find? (fun other => other.qualifiedName == node.qualifiedName) =
            some node := by
          simpa [List.find?_cons, same] using first
        refine ih ?_ later
        rw [insertClass_other resolver hierarchy package head (Ne.symm same)]
        exact absent

end Package

end ProgramModel
