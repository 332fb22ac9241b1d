/-
# ProgramModel.Proofs.Monotonicity -- learning about one more class

A hierarchy names more classes than it has.  When one that was missing is put in, the walks from
other classes go on where they have stopped: a chain of superclasses gets longer, what was met as an
interface may now be met as a superclass, and the visited names fall differently.  What the walks
find is described without them (`HasSuperclass`, `HasInterface`), by the links of the hierarchy; and
a class under a new name takes no link away, since every name finds what it has found
(`ClassHierarchy.Enriches`).

So superclasses stay superclasses.  An interface may stop being one, but only by becoming a
superclass (`HasSupertype.of_enriches`).  Hence each dispatch stays, perhaps as an override, and the
records of the larger hierarchy expect all calls that those of the smaller one do
(`classHierarchyAnalysis_monotone`).
-/
import ProgramModel.Proofs.Classes

namespace ProgramModel

set_option autoImplicit false

namespace ClassHierarchy

/-! ## More classes -/

/-- Each name that finds a class in the smaller hierarchy finds it in the larger one, from either
end of the list. -/
structure Enriches (larger smaller : ClassHierarchy) : Prop where
  last : ∀ name node, smaller.find? name = some node → larger.find? name = some node
  first : ∀ name node, smaller.first? name = some node → larger.first? name = some node

/-- A class may be put anywhere among others if none of them has its name. -/
theorem find?_insert {before after : List ClassNode} {added node : ClassNode} {name : String}
    (fresh : ∀ other ∈ before ++ after, other.qualifiedName ≠ added.qualifiedName)
    (finds : (before ++ after).find? (fun other => other.qualifiedName == name) = some node) :
    (before ++ added :: after).find? (fun other => other.qualifiedName == name) = some node := by
  have differs : added.qualifiedName ≠ name := by
    have named : node.qualifiedName = name := by simpa using List.find?_some finds
    rw [← named]
    exact (fresh node (List.mem_of_find?_eq_some finds)).symm
  rw [List.find?_append] at finds ⊢
  rw [List.find?_cons_of_neg (by simpa using differs)]
  exact finds

theorem enriches_insert {before after : List ClassNode} {added : ClassNode}
    (fresh : ∀ other ∈ before ++ after, other.qualifiedName ≠ added.qualifiedName) :
    Enriches ⟨before ++ added :: after⟩ ⟨before ++ after⟩ where
  last name node finds := by
    have apart : ∀ other ∈ after.reverse ++ before.reverse,
        other.qualifiedName ≠ added.qualifiedName := by
      intro other there
      rw [← List.reverse_append, List.mem_reverse] at there
      exact fresh other there
    simp only [find?, List.reverse_append, List.reverse_cons, List.append_assoc,
      List.singleton_append] at finds ⊢
    exact find?_insert apart finds
  first name node finds := find?_insert fresh finds

/-! ## More supertypes -/

variable {larger smaller : ClassHierarchy} {node supertype : ClassNode} {own : String}
  {listed : ClassNode → List String} (enriches : larger.Enriches smaller)
include enriches

theorem Links.of_enriches {child parent : ClassNode} (links : smaller.Links own listed child parent) :
    larger.Links own listed child parent := by
  obtain ⟨name, names, differs, finds⟩ := links_iff.mp links
  exact links_iff.mpr ⟨name, names, differs, enriches.last name parent finds⟩

/-- A way along links can still be gone. -/
theorem way_of_enriches {start : ClassNode}
    (way : Relation.TransGen (smaller.Links own listed) start supertype) :
    Relation.TransGen (larger.Links own listed) start supertype :=
  Relation.TransGen.mono (fun _ _ links => Links.of_enriches enriches links) _ _ way

theorem HasSuperclass.of_enriches (above : smaller.HasSuperclass node supertype) :
    larger.HasSuperclass node supertype :=
  way_of_enriches enriches above

/-- **A supertype stays one.**  It may change its kind only from an interface to a superclass. -/
theorem HasSupertype.of_enriches {kind : ExpectedKind}
    (above : smaller.HasSupertype node kind supertype) :
    ∃ other, larger.HasSupertype node other supertype ∧ (other = kind ∨ other = .override) := by
  cases kind with
  | override => exact ⟨.override, HasSuperclass.of_enriches enriches above, .inl rfl⟩
  | implements =>
      by_cases raised : larger.HasSuperclass node supertype
      · exact ⟨.override, raised, .inr rfl⟩
      · obtain ⟨-, start, place, way⟩ := above
        refine ⟨.implements, ⟨raised, start, ?_, way_of_enriches enriches way⟩, .inl rfl⟩
        exact place.imp_right (HasSuperclass.of_enriches enriches)

/-- **A dispatch stays one.** -/
theorem Dispatches.of_enriches {selector : String} {kind : ExpectedKind}
    (dispatches : smaller.Dispatches node supertype selector kind) :
    ∃ other, larger.Dispatches node supertype selector other ∧
      (other = kind ∨ other = .override) := by
  obtain ⟨noInterface, above, declared, open_⟩ := dispatches
  obtain ⟨other, stays, change⟩ := HasSupertype.of_enriches enriches above
  exact ⟨other, ⟨noInterface, stays, declared, open_⟩, change⟩

end ClassHierarchy

/-! ## More expected calls -/

namespace Package

variable {resolver : ArtifactResolver} {larger smaller : ClassHierarchy} {node : ClassNode}

/-- The later record says what the earlier one says, and expects all calls that it does: under the
same methods, with the kind that they had or as overrides.  Their methods are compared by what they
are known by, since either registry hands out its own ids. -/
structure Upholds (later earlier : MethodRegistry) (record kept : ClassRecord) : Prop where
  outline : record.outline = kept.outline
  calls : ∀ call ∈ kept.expectedCalls, ∃ source target,
    earlier.Denotes call.source source ∧ earlier.Denotes call.target target ∧
    ∃ other ∈ record.expectedCalls,
      later.Denotes other.source source ∧ later.Denotes other.target target ∧
      (other.kind = call.kind ∨ other.kind = .override)

theorem upholds_of_realizes (enriches : larger.Enriches smaller) {later earlier : MethodRegistry}
    {record kept : ClassRecord} (outline : record.outline = kept.outline)
    (realizes : later.Realizes record.expectedCalls (resolver.expectedEdges larger node))
    (realized : earlier.Realizes kept.expectedCalls (resolver.expectedEdges smaller node)) :
    Upholds later earlier record kept where
  outline := outline
  calls call member := by
    obtain ⟨edge, there, source, target, kind⟩ := realized.sound call member
    obtain ⟨supertype, selector, dispatches, leaves, arrives⟩ :=
      ArtifactResolver.mem_expectedEdges_iff.mp there
    obtain ⟨other, stays, change⟩ := ClassHierarchy.Dispatches.of_enriches enriches dispatches
    obtain ⟨another, expected, leaves', arrives', kind'⟩ :=
      realizes.complete _ (ArtifactResolver.expectedEdge_mem stays)
    refine ⟨edge.source, edge.target, source, target, another, expected, leaves ▸ leaves',
      arrives ▸ arrives', ?_⟩
    rw [kind, kind']
    exact change

variable {hierarchy : ClassHierarchy} {name : String} {record kept : ClassRecord}

/-- A hierarchy leaves the record of its first class of a name. -/
theorem exists_record_of_first (first : hierarchy.first? name = some node) :
    let final := (({} : Package).insertHierarchy resolver hierarchy).value.1
    ∃ record, final.classRecord? name = some record ∧ record.outline = resolver.outline node ∧
      final.methods.Realizes record.expectedCalls (resolver.expectedEdges hierarchy node) := by
  obtain rfl : node.qualifiedName = name := by simpa using List.find?_some first
  exact insertClasses_records resolver hierarchy rfl first

/-- It leaves no other record. -/
theorem exists_first_of_record
    (there : (({} : Package).insertHierarchy resolver hierarchy).value.1.classRecord? name =
      some record) : ∃ node, hierarchy.first? name = some node := by
  cases search : hierarchy.first? name with
  | some node => exact ⟨node, rfl⟩
  | none =>
      have unnamed : ∀ node ∈ hierarchy.classes, node.qualifiedName ≠ name := by
        simpa using List.find?_eq_none.mp search
      cases there.symm.trans (insertClasses_other resolver hierarchy {} unnamed)

/-- **Each record of a hierarchy is upheld by one that enriches it.** -/
theorem upholds_of_enriches (enriches : larger.Enriches smaller)
    (there : (({} : Package).insertHierarchy resolver smaller).value.1.classRecord? name =
      some kept) :
    let later := (({} : Package).insertHierarchy resolver larger).value.1
    let earlier := (({} : Package).insertHierarchy resolver smaller).value.1
    ∃ record, later.classRecord? name = some record ∧
      Upholds later.methods earlier.methods record kept := by
  obtain ⟨node, first⟩ := exists_first_of_record there
  obtain ⟨same, kept', outline, realized⟩ := exists_record_of_first first
  obtain rfl : kept = same := Option.some.inj (there.symm.trans kept')
  obtain ⟨record, recorded, outline', realizes⟩ :=
    exists_record_of_first (enriches.first name node first)
  exact ⟨record, recorded,
    upholds_of_realizes enriches (outline'.trans outline.symm) realizes realized⟩

end Package

/-- **Class-hierarchy analysis is monotone.**  A class under a name that no class of a hierarchy has
is put anywhere into it, and either hierarchy is inserted into an empty package.  Then every record
of the smaller one is there in the larger one, the same but for its expected calls, and all of these
are still expected: between methods of the same class, symbol and artifact, and of the same kind
unless what was met as an interface is now met as a superclass. -/
theorem classHierarchyAnalysis_monotone (resolver : ArtifactResolver)
    (before after : List ClassNode) (added : ClassNode)
    (fresh : ∀ node ∈ before ++ after, node.qualifiedName ≠ added.qualifiedName) :
    let smaller := (({} : Package).insertHierarchy resolver ⟨before ++ after⟩).value.1
    let larger := (({} : Package).insertHierarchy resolver ⟨before ++ added :: after⟩).value.1
    ∀ name kept, smaller.classRecord? name = some kept →
      ∃ record, larger.classRecord? name = some record ∧
        Package.Upholds larger.methods smaller.methods record kept := by
  intro smaller larger name kept there
  exact Package.upholds_of_enriches (ClassHierarchy.enriches_insert fresh) there

/-- A class that runs as its interface does, and whose superclass is missing. -/
def orphanClass : ClassNode where
  reference := ⟨"a.A", .application⟩
  superclass := some ⟨"a.B", .application⟩
  interfaces := [⟨"a.I", .application⟩]
  methods := [{ selector := "run()V" }]

/-- What it is listed to implement. -/
def runnableType : ClassNode where
  reference := ⟨"a.I", .application⟩
  methods := [{ selector := "run()V", isAbstract := true }]

/-- The superclass, which is a subclass of what the class is listed to implement. -/
def missingClass : ClassNode where
  reference := ⟨"a.B", .application⟩
  superclass := some ⟨"a.I", .application⟩

/-- The two classes that are there. -/
def orphanHierarchy : ClassHierarchy := ⟨[orphanClass] ++ [runnableType]⟩

/-- The three classes. -/
def completedHierarchy : ClassHierarchy := ⟨[orphanClass] ++ missingClass :: [runnableType]⟩

/-- The class expects the call as from an interface. -/
theorem dispatches_orphan :
    orphanHierarchy.Dispatches orphanClass runnableType "run()V" .implements := by
  have only : ClassHierarchy.superclassNames orphanClass = ["a.B"] := by decide
  have missing : orphanHierarchy.find? "a.B" = none := by decide
  have link : orphanHierarchy.Links orphanClass.qualifiedName ClassHierarchy.interfaceNames
      orphanClass runnableType :=
    ClassHierarchy.links_iff.mpr ⟨"a.I", by decide, by decide, by decide⟩
  refine ClassHierarchy.dispatches_iff.mpr ⟨rfl, ⟨fun above => ?_, orphanClass, .inl rfl,
    .single link⟩, ⟨_, List.mem_cons_self, rfl, rfl, rfl⟩, _, rfl, rfl⟩
  -- Without the superclass the way along superclasses ends at once.
  obtain ⟨_, up, -⟩ := Relation.TransGen.head'_iff.mp above
  obtain ⟨name, named, -, finds⟩ := ClassHierarchy.links_iff.mp up
  rw [only, List.mem_singleton] at named
  rw [named, missing] at finds
  cases finds

/-- With its superclass the class meets the interface as a superclass. -/
theorem hasSuperclass_completed :
    completedHierarchy.HasSuperclass orphanClass runnableType := by
  have first : completedHierarchy.Links orphanClass.qualifiedName ClassHierarchy.superclassNames
      orphanClass missingClass :=
    ClassHierarchy.links_iff.mpr ⟨"a.B", by decide, by decide, by decide⟩
  have second : completedHierarchy.Links orphanClass.qualifiedName ClassHierarchy.superclassNames
      missingClass runnableType :=
    ClassHierarchy.links_iff.mpr ⟨"a.I", by decide, by decide, by decide⟩
  exact .head first (.single second)

/-- The call is still expected then, and as an override. -/
theorem classHierarchyAnalysis_monotone_orphan :
    let smaller := (({} : Package).insertHierarchy .unknowing orphanHierarchy).value.1
    let larger := (({} : Package).insertHierarchy .unknowing completedHierarchy).value.1
    ∃ kept record call other, smaller.classRecord? "a.A" = some kept ∧
      larger.classRecord? "a.A" = some record ∧
      call ∈ kept.expectedCalls ∧ other ∈ record.expectedCalls ∧
      smaller.methods.Denotes call.source ⟨"a.I", "run()V", none⟩ ∧
      larger.methods.Denotes other.source ⟨"a.I", "run()V", none⟩ ∧
      call.kind = .implements ∧ other.kind = .override := by
  intro smaller larger
  have first : orphanHierarchy.first? "a.A" = some orphanClass := by decide
  have first' : completedHierarchy.first? "a.A" = some orphanClass := by decide
  have found : completedHierarchy.find? "a.I" = some runnableType := by decide
  have source_eq : ArtifactResolver.unknowing.identify (runnableType.methodReference "run()V") =
      ⟨"a.I", "run()V", none⟩ := by decide
  obtain ⟨kept, there, -, realized⟩ := Package.exists_record_of_first first
  obtain ⟨call, member, leaves, -, kind⟩ :=
    realized.complete _ (ArtifactResolver.expectedEdge_mem dispatches_orphan)
  obtain ⟨record, recorded, upholds⟩ := classHierarchyAnalysis_monotone .unknowing
    [orphanClass] [runnableType] missingClass (by decide) "a.A" kept there
  obtain ⟨source, target, denotes, -, other, expected, leaves', -, change⟩ :=
    upholds.calls call member
  obtain rfl := denotes.identity_unique leaves
  -- Of the kind that it had, it would come from an interface that is no superclass.
  have raised : other.kind = .override := by
    rcases change with same | raised
    · obtain ⟨also, recorded', -, realizes⟩ := Package.exists_record_of_first first'
      obtain rfl : record = also := Option.some.inj (recorded.symm.trans recorded')
      obtain ⟨edge, listed, starts, -, kind'⟩ := realizes.sound other expected
      obtain ⟨supertype, selector, again, from_, -⟩ :=
        ArtifactResolver.mem_expectedEdges_iff.mp listed
      rw [← kind', same, kind] at again
      have owner : supertype.qualifiedName = "a.I" := by
        have starts' := from_.symm.trans (starts.identity_unique leaves')
        exact congrArg MethodIdentity.owner (starts'.trans source_eq)
      have finds := ClassHierarchy.find?_of_hasSupertype again.2.1
      rw [owner, found] at finds
      obtain rfl : runnableType = supertype := Option.some.inj finds
      exact absurd hasSuperclass_completed again.2.1.1
    · exact raised
  rw [← source_eq]
  exact ⟨kept, record, call, other, there, recorded, member, expected, leaves, leaves', kind,
    raised⟩

end ProgramModel
