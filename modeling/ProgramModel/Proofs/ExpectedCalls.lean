/-
# ProgramModel.Proofs.ExpectedCalls -- what the ends of an expected call are

A record expects calls to its own methods, from methods of the same selector in supertypes.  The
walk over supertypes never comes back to the name that it started from
(`ClassHierarchy.qualifiedName_ne_of_hasSupertype`), so the two ends have different owners, however
the classes refer to each other.  A class is drafted with the calls that it expects, as `LeadsTo`
says of their ends (`Records.leadsTo`), and every record is that of a class (`traced_run`).  So
this is the shape of every expected call of every record, whatever has been inserted and under
whatever resolvers (`expectedCalls_shape`).

The kind of a call does not tell two calls apart either: a supertype is a superclass or an
interface, never both, and a name finds one class of the hierarchy.
-/
import ProgramModel.Proofs.Counts
import ProgramModel.Proofs.Sources

namespace ProgramModel

set_option autoImplicit false

/-- What the ends of a call are that the record expects: a method that the class declares, which is
no initializer, and a method of the same selector in another class. -/
structure ClassRecord.LeadsTo (record : ClassRecord) (source target : MethodIdentity) : Prop where
  owner : target.owner = record.name
  declared : target.symbol ∈ record.methods
  initializer : ¬ "<init>".toList <+: target.symbol.toList ∧
    ¬ "<clinit>".toList <+: target.symbol.toList
  selector : source.symbol = target.symbol
  elsewhere : source.owner ≠ record.name

namespace Package

variable {resolver : ArtifactResolver} {hierarchy : ClassHierarchy} {node : ClassNode}
  {package : Package} {name : String} {record : ClassRecord} {call : ExpectedCall}

/-- **A call that the record of a class expects leads to the class from another one.** -/
theorem Records.leadsTo (records : package.Records resolver hierarchy node)
    (there : package.classRecord? node.qualifiedName = some record)
    (member : call ∈ record.expectedCalls) :
    record.isInterface = false ∧ ∃ source target,
      package.methods.Denotes call.source source ∧ package.methods.Denotes call.target target ∧
      record.LeadsTo source target := by
  obtain ⟨kept, recorded, outline, realizes⟩ := records
  obtain rfl : kept = record := Option.some.inj (recorded.symm.trans there)
  obtain ⟨edge, listed, leaves, arrives, -⟩ := realizes.sound call member
  obtain ⟨supertype, selector, dispatches, source, target⟩ :=
    ArtifactResolver.mem_expectedEdges_iff.mp listed
  obtain ⟨concrete, above, ⟨method, declares, rfl, -, -, -, initializer⟩, -⟩ := dispatches
  -- The record says of the class what its outline says.
  have named : kept.name = node.qualifiedName := congrArg ClassRecord.name outline
  have flagged : kept.isInterface = node.isInterface := congrArg ClassRecord.isInterface outline
  have lists : method.selector ∈ kept.outline.methods := by
    rw [outline, ArtifactResolver.mem_methods_outline]
    exact ⟨method, declares, rfl⟩
  refine ⟨flagged.trans concrete, edge.source, edge.target, leaves, arrives, ?_⟩
  rw [source, target]
  refine ⟨named.symm, lists, initializer, rfl, ?_⟩
  rw [named]
  exact ClassHierarchy.qualifiedName_ne_of_hasSupertype above

theorem Traced.leadsTo (traced : package.Traced)
    (there : package.classRecord? name = some record) (member : call ∈ record.expectedCalls) :
    record.isInterface = false ∧ ∃ source target,
      package.methods.Denotes call.source source ∧ package.methods.Denotes call.target target ∧
      record.LeadsTo source target := by
  obtain ⟨resolver, hierarchy, node, rfl, records⟩ := traced name record there
  exact records.leadsTo there member

/-- Expected calls of one record with the same ends are one call. -/
theorem Traced.expectedCall_unique (traced : package.Traced)
    (there : package.classRecord? name = some record) {other : ExpectedCall}
    (first : call ∈ record.expectedCalls) (second : other ∈ record.expectedCalls)
    (sources : other.source = call.source) (targets : other.target = call.target) :
    other = call := by
  apply traced.expectedEntry_injective there second first
  rw [expectedEntry, expectedEntry, sources, targets]

end Package

/-- **The shape of expected calls.**  After any operations, in any order and under any resolvers, a
record that expects calls is of no interface.  A call that it expects leads to a method of the class
that the record lists, not an initializer, from a method of the same selector in another class, even
where classes are supertypes of each other.  So no call leads from a method to itself, and no two
calls of a record differ in their kind only. -/
theorem expectedCalls_shape (operations : List Operation) :
    let package := (Ledger.run operations).package
    ∀ record ∈ package.classRecords, ∀ call ∈ record.expectedCalls,
      record.isInterface = false ∧
      (∃ source target, package.methods.Denotes call.source source ∧
        package.methods.Denotes call.target target ∧ record.LeadsTo source target) ∧
      call.source ≠ call.target ∧
      ∀ other ∈ record.expectedCalls, other.source = call.source → other.target = call.target →
        other = call := by
  intro package record listed call member
  have traced : package.Traced := Package.traced_run operations
  obtain ⟨name, there⟩ := Package.mem_classRecords_iff.mp listed
  obtain ⟨concrete, source, target, leaves, arrives, leads⟩ := traced.leadsTo there member
  refine ⟨concrete, ⟨source, target, leaves, arrives, leads⟩, ?_, fun other also =>
    traced.expectedCall_unique there member also⟩
  intro loop
  have same : source = target := leaves.identity_unique (loop ▸ arrives)
  exact leads.elsewhere (same ▸ leads.owner)

/-- A class that names its superclass and itself as interfaces. -/
def tangledClass : ClassNode where
  reference := ⟨"a.A", .application⟩
  superclass := some ⟨"a.B", .application⟩
  interfaces := [⟨"a.B", .application⟩, ⟨"a.A", .application⟩]
  methods := [{ selector := "run()V" }]

/-- Its superclass, of which it is the superclass. -/
def tangledBase : ClassNode where
  reference := ⟨"a.B", .application⟩
  superclass := some ⟨"a.A", .application⟩
  methods := [{ selector := "run()V", isAbstract := true }]

/-- The class expects a call from its superclass and none to itself, and the call overrides. -/
theorem expectedCalls_shape_tangled :
    let hierarchy : ClassHierarchy := ⟨[tangledClass, tangledBase]⟩
    let package := (Ledger.run [.insertHierarchy .unknowing hierarchy]).package
    ∃ record ∈ package.classRecords, ∃ call ∈ record.expectedCalls, record.name = "a.A" ∧
      package.methods.Denotes call.source ⟨"a.B", "run()V", none⟩ ∧
      call.source ≠ call.target ∧ call.kind = .override ∧
      ⟨call.source, call.target, .implements⟩ ∉ record.expectedCalls := by
  intro hierarchy package
  have link : hierarchy.Links "a.A" ClassHierarchy.superclassNames tangledClass tangledBase :=
    ClassHierarchy.links_iff.mpr ⟨"a.B", by decide, by decide, by decide⟩
  have dispatches : hierarchy.Dispatches tangledClass tangledBase "run()V" .override :=
    ClassHierarchy.dispatches_iff.mpr
      ⟨rfl, .single link, ⟨_, List.mem_cons_self, rfl, rfl, rfl⟩, _, rfl, rfl⟩
  have absent : ({} : Package).classRecord? tangledClass.qualifiedName = none := rfl
  have first : hierarchy.first? tangledClass.qualifiedName = some tangledClass := by decide
  have reached (hierarchy : ClassHierarchy) :
      (({} : Package).insertClasses .unknowing hierarchy hierarchy.classes).value.1 =
        (Ledger.run [.insertHierarchy .unknowing hierarchy]).package := rfl
  have records := Package.insertClasses_records .unknowing hierarchy absent first
  rw [reached] at records
  obtain ⟨record, there, outline, realizes⟩ := records
  obtain ⟨call, member, leaves, -, kind⟩ :=
    realizes.complete _ (ArtifactResolver.expectedEdge_mem dispatches)
  have listed : record ∈ package.classRecords := Package.mem_classRecords_iff.mpr ⟨_, there⟩
  obtain ⟨-, -, apart, unique⟩ := expectedCalls_shape [.insertHierarchy .unknowing hierarchy] record
    listed call member
  refine ⟨record, listed, call, member, congrArg ClassRecord.name outline, leaves, apart, kind, ?_⟩
  intro also
  have same := congrArg ExpectedCall.kind (unique _ also rfl rfl)
  cases same.trans kind

end ProgramModel
