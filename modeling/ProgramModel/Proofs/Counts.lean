/-
# ProgramModel.Proofs.Counts -- a document has as much as its package

The collections of a document are sets, so two calls of a package that looked alike in the
document would become one.  None do.  A method of the registry is the only one with its
identity (`identity_injective`), so no two calls look alike (`callEntry_injective`).  Nor do two
expected calls of one record, although their kind is left out
(`Traced.expectedEntry_injective`).  And a class is found again by its name
(`Coherent.exists_record`).  So every count of a package is the count of its document.
-/
import ProgramModel.Proofs.Origins

namespace ProgramModel

set_option autoImplicit false

namespace Package

variable {package : Package}

/-! ## Methods -/

/-- What an id denotes is what the method at its place is known by. -/
theorem Knows.denotes {id : MethodId} (known : package.Knows id) :
    package.methods.Denotes id (package.identity id) := by
  obtain ⟨method, there⟩ := known
  have denotes : package.methods.Denotes id method.identity :=
    MethodRegistry.denotes_iff.mpr ⟨method, there, rfl⟩
  have same : package.identity id = method.identity := denotes.identity_eq
  rw [same]
  exact denotes

/-- **Different methods are known by different identities.** -/
theorem identity_injective {one other : MethodId} (first : package.Knows one)
    (second : package.Knows other) (same : package.identity one = package.identity other) :
    one = other := by
  have denotes := first.denotes
  rw [same] at denotes
  exact denotes.id_unique second.denotes

/-! ## Calls -/

theorem callEntry_injective {one other : Call}
    (first : package.Knows one.source ∧ package.Knows one.target)
    (second : package.Knows other.source ∧ package.Knows other.target)
    (same : package.callEntry one = package.callEntry other) : one = other := by
  have sources := identity_injective first.1 second.1 (congrArg CallEntry.source same)
  have targets := identity_injective first.2 second.2 (congrArg CallEntry.target same)
  have types : one.type = other.type := congrArg CallEntry.type same
  cases one
  cases other
  simp_all

section Halves

variable {calls : SortedSet Call} {attributed : Bool}
  (half : HalfDenotes package.methods calls attributed)
include half

/-- A half of the calls has as many entries as it has calls. -/
theorem HalfDenotes.size_entries :
    (SortedSet.ofList (calls.toList.map package.callEntry)).size = calls.size := by
  refine SortedSet.size_ofList_map ?_
  intro one there other also same
  have first := half.knows there
  have second := half.knows also
  exact callEntry_injective ⟨first.1, first.2.knows⟩ ⟨second.1, second.2.knows⟩ same

/-- The targets of the entries of a half are attributed or not, as those of the half are. -/
theorem HalfDenotes.isResolved_target {entry : CallEntry}
    (there : entry ∈ SortedSet.ofList (calls.toList.map package.callEntry)) :
    entry.target.isResolved = attributed := by
  obtain ⟨call, member, rfl⟩ := SortedSet.mem_ofList_map.mp there
  obtain ⟨source, target, -, arrives, same⟩ := half call member
  have known : package.identity call.target = target := arrives.identity_eq
  simp only [callEntry, known, same]

end Halves

/-! ## Expected calls -/

section Expected

variable {name : String} {record : ClassRecord}

/-- **Leaving the kind out merges no expected calls of a record.** -/
theorem Traced.expectedEntry_injective (traced : package.Traced)
    (there : package.classRecord? name = some record) {one other : ExpectedCall}
    (first : one ∈ record.expectedCalls) (second : other ∈ record.expectedCalls)
    (same : package.expectedEntry one = package.expectedEntry other) : one = other := by
  obtain ⟨resolver, hierarchy, node, realizes⟩ := traced.realizes there
  obtain ⟨edge, listed, denotes⟩ := realizes.sound one first
  obtain ⟨another, also, denotesOther⟩ := realizes.sound other second
  have entries : edge.entry = another.entry := by
    rw [← expectedEntry_of_denotes denotes, ← expectedEntry_of_denotes denotesOther]
    exact same
  obtain rfl := ArtifactResolver.expectedEdge_unique listed also entries
  exact denotes.call_unique denotesOther

/-- The entry of a record has as many expected calls as the record. -/
theorem Traced.size_expectedCalls (traced : package.Traced)
    (there : package.classRecord? name = some record) :
    (package.classEntry record).expectedCalls.size = record.expectedCalls.size := by
  refine SortedSet.size_ofList_map ?_
  intro one first other second same
  exact traced.expectedEntry_injective there first second same

end Expected

/-! ## Classes -/

/-- The records stand in the order of their names. -/
theorem Coherent.names_classRecords (coherent : package.Coherent) :
    package.classRecords.map ClassRecord.name = package.classes.keys := by
  simp only [classRecords, SortedMap.values, SortedMap.keys, List.map_map]
  refine List.map_congr_left ?_
  intro entry there
  exact coherent.named entry.1 entry.2 (SortedMap.get?_eq_some_iff.mpr there)

/-- Every entry of a class is that of the record of its name. -/
theorem Coherent.exists_record (coherent : package.Coherent) {entry : ClassEntry}
    (there : entry ∈ package.document.classes) :
    ∃ record, package.classRecord? entry.name = some record ∧
      entry = package.classEntry record := by
  obtain ⟨record, listed, rfl⟩ := List.mem_map.mp (SortedSet.mem_ofList.mp there)
  obtain ⟨name, found⟩ := mem_classRecords_iff.mp listed
  have named : record.name = name := coherent.named name record found
  refine ⟨record, ?_, rfl⟩
  show package.classRecord? record.name = some record
  rw [named]
  exact found

/-- No two entries are of classes of one name. -/
theorem Coherent.distinct_names (coherent : package.Coherent) :
    (package.document.classes.toList.map ClassEntry.name).Nodup := by
  refine List.pairwise_map.mpr (package.document.classes.nodup_toList.imp_of_mem ?_)
  intro one other first second differs same
  obtain ⟨record, recorded, entry⟩ := coherent.exists_record first
  obtain ⟨another, also, entryOther⟩ := coherent.exists_record second
  rw [same, also] at recorded
  cases recorded
  exact differs (entry.trans entryOther.symm)

theorem Coherent.size_classes (coherent : package.Coherent) :
    package.document.classes.size = package.classes.size := by
  have distinct := package.classes.nodup_keys
  rw [← coherent.names_classRecords] at distinct
  have separate : (package.classRecords.map package.classEntry).Nodup := by
    -- Entries differ already in their names, which are those of the records.
    refine List.pairwise_map.mpr ((List.pairwise_map.mp distinct).imp ?_)
    intro one other differs same
    exact differs (congrArg ClassEntry.name same)
  have counted := SortedSet.size_ofList separate
  rw [List.length_map] at counted
  refine counted.trans ?_
  simp only [classRecords, SortedMap.values, List.length_map, SortedMap.size]

/-! ## All of it -/

/-- **Every count of a package is the count of its document.** -/
theorem Coherent.sizes_document (coherent : package.Coherent) :
    package.document.artifacts.size = package.artifacts.size ∧
    package.document.classes.size = package.classes.size ∧
    package.document.resolvedCalls.size = package.resolvedCalls.size ∧
    package.document.unresolvedCalls.size = package.unresolvedCalls.size :=
  ⟨rfl, coherent.size_classes, coherent.resolved.size_entries, coherent.unresolved.size_entries⟩

end Package

end ProgramModel
