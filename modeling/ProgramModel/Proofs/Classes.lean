/-
# ProgramModel.Proofs.Classes -- which records a hierarchy leaves in a package

Inserting a class does nothing if its name has a record, and otherwise adds the record
that the class is drafted to (`insertClass_cases`); everything else about a hierarchy
follows from that.  A package that has gone through an insertion *extends* the one
before: its registry has grown and every record is still there.  `Records` says that a
package holds the record of a class, outline and expected calls; it is kept by
extension, so what is true right after a class was inserted is true at the end.

A name that had no record gets the record of the first node that carries it
(`insertClasses_records`), although a look-up in the hierarchy finds the last one.  Its
expected calls are exactly what the hierarchy lets dispatch to it
(`expectedCalls_newRecord`).
-/
import ProgramModel.Proofs.Drafts

namespace ProgramModel

set_option autoImplicit false

/-! ## Outlines -/

/-- A record without its expected calls. -/
def ClassRecord.outline (record : ClassRecord) : ClassRecord := { record with expectedCalls := ∅ }

/-- What the record of a class says without looking at other classes. -/
def ArtifactResolver.outline (resolver : ArtifactResolver) (node : ClassNode) : ClassRecord where
  artifact := resolver.ofClass node.reference
  name := node.reference.qualifiedName
  superclass := node.superclass.map TypeReference.qualifiedName
  interfaces := SortedSet.ofList (node.interfaces.map TypeReference.qualifiedName)
  methods := SortedSet.ofList (node.methods.map MethodDeclaration.selector)
  isPublic := node.modifiers.isPublic
  isPrivate := node.modifiers.isPrivate
  isInterface := node.modifiers.isInterface
  isAbstract := node.modifiers.isAbstract

namespace Package

theorem Draft.outline_expect (resolver : ArtifactResolver) (selector : String) (target : MethodId)
    (candidates : List (ClassNode × ExpectedKind)) (draft : Draft) :
    (candidates.foldl (Draft.expect resolver selector target) draft).record.outline =
      draft.record.outline := by
  induction candidates generalizing draft with
  | nil => rfl
  | cons candidate rest ih => exact ih _

theorem Draft.outline_declare (resolver : ArtifactResolver) (node : ClassNode)
    (supertypes : Supertypes) (draft : Draft) (method : MethodDeclaration) :
    (draft.declare resolver node supertypes method).record.outline =
      { draft.record.outline with methods := draft.record.methods.insert method.selector } := by
  simp only [Draft.declare]
  split
  · exact Draft.outline_expect resolver _ _ _ _
  · rfl

theorem Draft.outline_foldl_declare (resolver : ArtifactResolver) (node : ClassNode)
    (supertypes : Supertypes) (methods : List MethodDeclaration) (draft : Draft) :
    (methods.foldl (Draft.declare resolver node supertypes) draft).record.outline =
      { draft.record.outline with
        methods := (methods.map MethodDeclaration.selector).foldl SortedSet.insert
          draft.record.methods } := by
  induction methods generalizing draft with
  | nil => rfl
  | cons method rest ih =>
      have step := Draft.outline_declare resolver node supertypes draft method
      have inserted := congrArg ClassRecord.methods step
      rw [List.foldl_cons, ih, step]
      simp only [ClassRecord.outline] at inserted ⊢
      rw [inserted]
      rfl

theorem outline_draftClass (resolver : ArtifactResolver) (hierarchy : ClassHierarchy)
    (node : ClassNode) (methods : MethodRegistry) :
    (draftClass resolver hierarchy node methods).record.outline = resolver.outline node :=
  Draft.outline_foldl_declare resolver node _ node.methods _

/-! ## Packages that go on from one another -/

/-- The later package has the methods of the earlier one and all of its class records. -/
structure Extends (later earlier : Package) : Prop where
  methods : later.methods.Extends earlier.methods
  classes : ∀ name record, earlier.classRecord? name = some record →
    later.classRecord? name = some record

theorem Extends.refl (package : Package) : package.Extends package :=
  ⟨MethodRegistry.Extends.refl _, fun _ _ kept => kept⟩

theorem Extends.trans {first second third : Package} (after : third.Extends second)
    (before : second.Extends first) : third.Extends first where
  methods := after.methods.trans before.methods
  classes name record kept := after.classes name record (before.classes name record kept)

theorem classRecord?_addClassRecord (package : Package) (record : ClassRecord) (name : String) :
    (package.addClassRecord record).classRecord? name =
      if name = record.name then some record else package.classRecord? name :=
  SortedMap.get?_insert package.classes record.name name record

/-- The package holds the record of the class: its outline, and the expected edges as calls. -/
def Records (resolver : ArtifactResolver) (hierarchy : ClassHierarchy) (package : Package)
    (node : ClassNode) : Prop :=
  ∃ record, package.classRecord? node.qualifiedName = some record ∧
    record.outline = resolver.outline node ∧
    package.methods.Realizes record.expectedCalls (resolver.expectedEdges hierarchy node)

variable {resolver : ArtifactResolver} {hierarchy : ClassHierarchy} {package later : Package}
  {node : ClassNode}

theorem Records.of_extends (records : package.Records resolver hierarchy node)
    (grown : later.Extends package) : later.Records resolver hierarchy node := by
  obtain ⟨record, there, outline, realizes⟩ := records
  exact ⟨record, grown.classes _ _ there, outline, realizes.of_extends grown.methods⟩

/-! ## One class -/

/-- A name with a record is not one without. -/
theorem ne_of_absent {name new : String} {record : ClassRecord}
    (there : package.classRecord? name = some record)
    (absent : package.classRecord? new = none) : name ≠ new := by
  rintro rfl
  rw [absent] at there
  cases there

variable (resolver hierarchy package node)

/-- The name of a drafted record is that of its class. -/
theorem name_draftClass (methods : MethodRegistry) :
    (draftClass resolver hierarchy node methods).record.name = node.qualifiedName :=
  congrArg ClassRecord.name (outline_draftClass resolver hierarchy node methods)

/-- **All that inserting a class can do.** -/
theorem insertClass_cases :
    (∃ kept, package.classRecord? node.qualifiedName = some kept ∧
      (package.insertClass resolver hierarchy node).value = (package, false)) ∨
    (package.classRecord? node.qualifiedName = none ∧
      (package.insertClass resolver hierarchy node).value =
        ({ package with methods := (draftClass resolver hierarchy node package.methods).methods
          }.addClassRecord (draftClass resolver hierarchy node package.methods).record, true)) := by
  unfold insertClass
  split
  · rename_i kept there
    exact .inl ⟨kept, there, rfl⟩
  · rename_i absent
    exact .inr ⟨absent, rfl⟩

theorem insertClass_extends :
    (package.insertClass resolver hierarchy node).value.1.Extends package := by
  rcases insertClass_cases resolver hierarchy package node with
    ⟨kept, -, same⟩ | ⟨absent, new⟩
  · rw [same]; exact Extends.refl package
  · rw [new]
    refine ⟨draftClass_extends resolver hierarchy node package.methods, fun name record there => ?_⟩
    rw [classRecord?_addClassRecord, name_draftClass, if_neg (ne_of_absent there absent)]
    exact there

theorem insertClass_other {name : String} (differs : name ≠ node.qualifiedName) :
    (package.insertClass resolver hierarchy node).value.1.classRecord? name =
      package.classRecord? name := by
  rcases insertClass_cases resolver hierarchy package node with ⟨kept, -, same⟩ | ⟨-, new⟩
  · rw [same]
  · rw [new, classRecord?_addClassRecord, name_draftClass, if_neg differs]
    rfl

variable {package node}

/-- A class without a record gets its own. -/
theorem insertClass_records (absent : package.classRecord? node.qualifiedName = none) :
    (package.insertClass resolver hierarchy node).value.1.Records resolver hierarchy node := by
  rcases insertClass_cases resolver hierarchy package node with ⟨kept, there, -⟩ | ⟨-, new⟩
  · rw [absent] at there; cases there
  · rw [new]
    refine ⟨_, ?_, outline_draftClass resolver hierarchy node package.methods,
      draftClass_realizes resolver hierarchy node package.methods⟩
    rw [classRecord?_addClassRecord, name_draftClass, if_pos rfl]

/-! ## All classes of a hierarchy -/

variable (package node)

theorem value_insertClasses_cons (rest : List ClassNode) :
    (package.insertClasses resolver hierarchy (node :: rest)).value =
      let step := (package.insertClass resolver hierarchy node).value
      let last := (step.1.insertClasses resolver hierarchy rest).value
      (last.1, step.2.toNat + last.2) := rfl

/-- What inserting one class keeps, inserting all of them keeps. -/
theorem insertClasses_induction {motive : Package → Prop}
    (step : ∀ package node, motive package →
      motive (package.insertClass resolver hierarchy node).value.1)
    (start : motive package) (nodes : List ClassNode) :
    motive (package.insertClasses resolver hierarchy nodes).value.1 := by
  induction nodes generalizing package with
  | nil => exact start
  | cons node rest ih =>
      rw [value_insertClasses_cons]
      exact ih _ (step package node start)

theorem insertClasses_extends (nodes : List ClassNode) :
    (package.insertClasses resolver hierarchy nodes).value.1.Extends package := by
  refine insertClasses_induction (motive := fun later => later.Extends package) resolver hierarchy
    package ?_ (Extends.refl package) nodes
  intro later node grown
  exact (insertClass_extends resolver hierarchy later node).trans grown

theorem insertClasses_other {nodes : List ClassNode} {name : String}
    (unnamed : ∀ node ∈ nodes, node.qualifiedName ≠ name) :
    (package.insertClasses resolver hierarchy nodes).value.1.classRecord? name =
      package.classRecord? name := by
  induction nodes generalizing package with
  | nil => rfl
  | cons node rest ih =>
      rw [value_insertClasses_cons]
      have differs : name ≠ node.qualifiedName := (unnamed node List.mem_cons_self).symm
      calc ((package.insertClass resolver hierarchy node).value.1.insertClasses resolver hierarchy
              rest).value.1.classRecord? name
          = (package.insertClass resolver hierarchy node).value.1.classRecord? name :=
            ih _ fun other there => unnamed other (List.mem_cons_of_mem _ there)
        _ = package.classRecord? name := insertClass_other resolver hierarchy package node differs

variable {package node}

/-- **A name without a record gets the record of the first node that carries it.** -/
theorem insertClasses_records {nodes : List ClassNode}
    (absent : package.classRecord? node.qualifiedName = none)
    (first : nodes.find? (fun other => other.qualifiedName == node.qualifiedName) = some node) :
    (package.insertClasses resolver hierarchy nodes).value.1.Records resolver hierarchy node := by
  induction nodes generalizing package with
  | nil => simp at first
  | cons head rest ih =>
      rw [value_insertClasses_cons]
      by_cases same : head.qualifiedName = node.qualifiedName
      · -- The rest of the nodes can only add to what this one has left.
        obtain rfl : head = node := by simpa [List.find?_cons, same] using first
        exact (insertClass_records resolver hierarchy absent).of_extends
          (insertClasses_extends resolver hierarchy _ rest)
      · have later : rest.find? (fun other => other.qualifiedName == node.qualifiedName) =
            some node := by
          simpa [List.find?_cons, same] using first
        refine ih ?_ later
        rw [insertClass_other resolver hierarchy package head (Ne.symm same)]
        exact absent

end Package

/-! ## What the new records expect -/

/-- The first node with a name. -/
def ClassHierarchy.first? (hierarchy : ClassHierarchy) (name : String) : Option ClassNode :=
  hierarchy.classes.find? (fun node => node.qualifiedName == name)

namespace Package

/-- What it is for a record to expect what the hierarchy lets dispatch to its class: a call is
expected exactly when it leads from a selector of a supertype to the same selector of the class
where the one dispatches to the other, and the methods at both ends are in the registry. -/
structure ExpectsDispatches (resolver : ArtifactResolver) (hierarchy : ClassHierarchy)
    (registry : MethodRegistry) (node : ClassNode) (record : ClassRecord) : Prop where
  exact : ∀ call, call ∈ record.expectedCalls ↔ ∃ supertype selector,
    hierarchy.Dispatches node supertype selector call.kind ∧
      registry.Denotes call.source (resolver.identify (supertype.methodReference selector)) ∧
      registry.Denotes call.target (resolver.identify (node.methodReference selector))
  present : ∀ supertype selector kind, hierarchy.Dispatches node supertype selector kind →
    ∃ source target,
      registry.Denotes source (resolver.identify (supertype.methodReference selector)) ∧
      registry.Denotes target (resolver.identify (node.methodReference selector))

/-- Calls that realize the expected edges are those of the dispatches. -/
theorem expectsDispatches_of_realizes {resolver : ArtifactResolver} {hierarchy : ClassHierarchy}
    {registry : MethodRegistry} {node : ClassNode} {record : ClassRecord}
    (realizes : registry.Realizes record.expectedCalls (resolver.expectedEdges hierarchy node)) :
    ExpectsDispatches resolver hierarchy registry node record where
  exact call := by
    constructor
    · intro member
      obtain ⟨edge, listed, source, target, kind⟩ := realizes.sound call member
      obtain ⟨supertype, selector, dispatches, leaves, arrives⟩ :=
        ArtifactResolver.mem_expectedEdges_iff.mp listed
      exact ⟨supertype, selector, kind ▸ dispatches, leaves ▸ source, arrives ▸ target⟩
    · rintro ⟨supertype, selector, dispatches, source, target⟩
      exact realizes.mem_iff.mpr ⟨_, ArtifactResolver.expectedEdge_mem dispatches,
        source, target, rfl⟩
  present supertype selector kind dispatches := by
    obtain ⟨call, -, source, target, -⟩ :=
      realizes.complete _ (ArtifactResolver.expectedEdge_mem dispatches)
    exact ⟨call.source, call.target, source, target⟩

/-- **The expected calls of a new record are exactly what its hierarchy lets dispatch to it.**
From any package, a name without a record stays without one when no node carries it, and
otherwise gets the record of the first node that does. -/
theorem expectedCalls_newRecord (resolver : ArtifactResolver) (hierarchy : ClassHierarchy)
    (package : Package) (name : String) (absent : package.classRecord? name = none) :
    let final := (package.insertHierarchy resolver hierarchy).value.1
    (name ∉ hierarchy.names ∧ final.classRecord? name = none) ∨
    ∃ node record, hierarchy.first? name = some node ∧ final.classRecord? name = some record ∧
      ExpectsDispatches resolver hierarchy final.methods node record := by
  intro final
  cases search : hierarchy.first? name with
  | none =>
      have unnamed : ∀ node ∈ hierarchy.classes, node.qualifiedName ≠ name := by
        simpa using List.find?_eq_none.mp search
      refine .inl ⟨fun listed => ?_, ?_⟩
      · obtain ⟨node, there, same⟩ := List.mem_map.mp listed
        exact unnamed node there same
      · exact (insertClasses_other resolver hierarchy package unnamed).trans absent
  | some node =>
      obtain rfl : node.qualifiedName = name := by simpa using List.find?_some search
      obtain ⟨record, there, -, realizes⟩ := insertClasses_records resolver hierarchy absent search
      exact .inr ⟨node, record, rfl, there, expectsDispatches_of_realizes realizes⟩

/-- A class under an internal name, whose superclass is a subclass of it. -/
def mutualClass : ClassNode where
  reference := ⟨"La/A;", .application⟩
  superclass := some ⟨"a.B", .application⟩
  interfaces := [⟨"a.J", .application⟩]
  methods := [{ selector := "run()V" }]

/-- The superclass. -/
def mutualBase : ClassNode where
  reference := ⟨"a.B", .application⟩
  superclass := some ⟨"a.A", .application⟩
  methods := [{ selector := "run()V", isAbstract := true }]

/-- An interface that declares nothing, between the class and another interface. -/
def middleInterface : ClassNode where
  reference := ⟨"a.J", .application⟩
  interfaces := [⟨"a/I", .extension⟩, ⟨"a.Missing", .application⟩]
  modifiers := { isInterface := true }

/-- The other interface, which is of a foreign scope. -/
def rootInterface : ClassNode where
  reference := ⟨"a.I", .extension⟩
  methods := [{ selector := "run()V", isAbstract := true }]
  modifiers := { isInterface := true }

/-- Two classes, each the superclass of the other, and two interfaces, one of them listed once more
without its method. -/
def mutualSuperclasses : ClassHierarchy where
  classes := [mutualClass, mutualBase, { rootInterface with methods := [] }, middleInterface,
    rootInterface]

/-- The walk meets the superclass, and on the way through the one interface the other one. -/
theorem supertypes_mutualSuperclasses :
    mutualSuperclasses.supertypes mutualClass =
      ⟨[mutualBase], [middleInterface, rootInterface]⟩ := by
  have chain : mutualSuperclasses.superclassChain [mutualClass.qualifiedName]
      mutualClass.superclassName = ([mutualBase], ["a.B", "a.A"]) := by
    decide +kernel
  have middle : mutualSuperclasses.find? "a.J" = some middleInterface := by decide
  have missing : mutualSuperclasses.find? "a.Missing" = none := by decide
  have root : mutualSuperclasses.find? "a.I" = some rootInterface := by decide
  have closure : mutualSuperclasses.interfaceClosure ["a.B", "a.A"] ["a.J"] =
      [middleInterface, rootInterface] := by
    rw [ClassHierarchy.interfaceClosure_known (by decide) middle]
    show middleInterface ::
      mutualSuperclasses.interfaceClosure ["a.J", "a.B", "a.A"] ["a.Missing", "a.I"] = _
    rw [ClassHierarchy.interfaceClosure_unknown (by decide) missing,
      ClassHierarchy.interfaceClosure_known (by decide) root]
    show [middleInterface, rootInterface] ++ mutualSuperclasses.interfaceClosure _ [] = _
    rw [ClassHierarchy.interfaceClosure_nil, List.append_nil]
  rw [ClassHierarchy.supertypes, chain]
  exact congrArg (Supertypes.mk [mutualBase]) closure

/-- The superclass and the interface above dispatch to the class, and nothing else does. -/
theorem dispatches_mutualSuperclasses_iff {supertype : ClassNode} {selector : String}
    {kind : ExpectedKind} :
    mutualSuperclasses.Dispatches mutualClass supertype selector kind ↔
      selector = "run()V" ∧ (supertype = mutualBase ∧ kind = .override ∨
        supertype = rootInterface ∧ kind = .implements) := by
  have above : mutualSuperclasses.HasSupertype mutualClass kind supertype ↔
      supertype = mutualBase ∧ kind = .override ∨
        supertype = middleInterface ∧ kind = .implements ∨
        supertype = rootInterface ∧ kind = .implements := by
    rw [← ClassHierarchy.mem_candidates_iff, supertypes_mutualSuperclasses]
    simp [Supertypes.candidates]
  rw [ClassHierarchy.dispatches_iff, above]
  constructor
  · rintro ⟨-, place, ⟨method, listed, rfl, -⟩, declared, declares, -⟩
    obtain rfl := List.mem_singleton.mp listed
    rcases place with base | ⟨rfl, -⟩ | root
    · exact ⟨rfl, .inl base⟩
    · cases declares
    · exact ⟨rfl, .inr root⟩
  · rintro ⟨rfl, ⟨rfl, rfl⟩ | ⟨rfl, rfl⟩⟩
    · exact ⟨rfl, .inl ⟨rfl, rfl⟩, ⟨_, List.mem_cons_self, rfl, rfl, rfl⟩, _, rfl, rfl⟩
    · exact ⟨rfl, .inr (.inr ⟨rfl, rfl⟩), ⟨_, List.mem_cons_self, rfl, rfl, rfl⟩, _, rfl, rfl⟩

/-- The class expects two calls: one from its superclass, which it overrides although it is the
superclass of that class, and one from the interface, under what the last node of its name says. -/
theorem expectedCalls_newRecord_mutual :
    let resolver := ArtifactResolver.owning "g:a:1"
    let final := (({} : Package).insertHierarchy resolver mutualSuperclasses).value.1
    ({} : Package).classRecord? "a.A" = none ∧
      ∃ record base root target, final.classRecord? "a.A" = some record ∧
        final.methods.Denotes base ⟨"a.B", "run()V", some "g:a:1"⟩ ∧
        final.methods.Denotes root ⟨"a.I", "run()V", none⟩ ∧
        final.methods.Denotes target ⟨"a.A", "run()V", some "g:a:1"⟩ ∧
        ∀ call, call ∈ record.expectedCalls ↔
          call = ⟨base, target, .override⟩ ∨ call = ⟨root, target, .implements⟩ := by
  intro resolver final
  have listed : "a.A" ∈ mutualSuperclasses.names := by decide
  obtain ⟨unlisted, -⟩ | ⟨node, record, first, there, expects⟩ :=
    expectedCalls_newRecord resolver mutualSuperclasses {} "a.A" rfl
  · exact absurd listed unlisted
  · obtain rfl : mutualClass = node := Option.some.inj first
    obtain ⟨base, target, leaves, arrives⟩ := expects.present _ _ _
      (dispatches_mutualSuperclasses_iff.mpr ⟨rfl, .inl ⟨rfl, rfl⟩⟩)
    obtain ⟨root, again, starts, arrives'⟩ := expects.present _ _ _
      (dispatches_mutualSuperclasses_iff.mpr ⟨rfl, .inr ⟨rfl, rfl⟩⟩)
    obtain rfl : target = again := arrives.id_unique arrives'
    refine ⟨rfl, record, base, root, target, there, leaves, starts, arrives, ?_⟩
    intro call
    rw [expects.exact]
    constructor
    · rintro ⟨supertype, selector, dispatches, source, ends⟩
      obtain ⟨rfl, ⟨rfl, kind⟩ | ⟨rfl, kind⟩⟩ := dispatches_mutualSuperclasses_iff.mp dispatches
      · left
        rw [leaves.id_unique source, arrives.id_unique ends, ← kind]
      · right
        rw [starts.id_unique source, arrives.id_unique ends, ← kind]
    · rintro (rfl | rfl)
      · exact ⟨_, _, dispatches_mutualSuperclasses_iff.mpr ⟨rfl, .inl ⟨rfl, rfl⟩⟩, leaves, arrives⟩
      · exact ⟨_, _, dispatches_mutualSuperclasses_iff.mpr ⟨rfl, .inr ⟨rfl, rfl⟩⟩, starts, arrives⟩

end Package

end ProgramModel
