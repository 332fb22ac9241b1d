/-
# ProgramModel.Proofs.Documents -- each insertion, seen from the document

A document has no ids.  Here every operation on packages gets its counterpart on
documents, which reads the input alone: an artifact, a class or an edge of the input has
one entry, and entering it adds that entry to a set.  On a coherent package the
document of the outcome is the counterpart applied to the document
(`document_addArtifact`, `document_insertClass`, `document_insertEdge`).  So the ids that
a build hands out, and the order in which it does, leave no trace in what is exchanged.
-/
import ProgramModel.Document
import ProgramModel.Proofs.Coherence

namespace ProgramModel

set_option autoImplicit false

/-! ## The entry of an input -/

/-- What an expected edge is in a document. -/
def ExpectedEdge.entry (edge : ExpectedEdge) : ExpectedEntry := ⟨edge.source, edge.target⟩

namespace ArtifactResolver

variable (resolver : ArtifactResolver)

/-- The method is of a scope that may be attributed, and the resolver knows its artifact. -/
def attributes (method : MethodReference) : Bool :=
  method.declaringClass.scope.isAttributable && (resolver.ofMethod method).isSome

/-- What a call edge is in a document. -/
def callEntry (edge : CallEdge) : CallEntry where
  source := resolver.identify edge.caller
  target := resolver.identify edge.callee
  type := edge.dispatch.callType

/-- What a class of a hierarchy is in a document. -/
def classEntry (hierarchy : ClassHierarchy) (node : ClassNode) : ClassEntry where
  artifact := resolver.ofClass node.reference
  name := node.reference.qualifiedName
  superclass := node.superclass.map TypeReference.qualifiedName
  interfaces := SortedSet.ofList (node.interfaces.map TypeReference.qualifiedName)
  methods := SortedSet.ofList (node.methods.map MethodDeclaration.selector)
  expectedCalls := SortedSet.ofList
    ((resolver.expectedEdges hierarchy node).map ExpectedEdge.entry)
  isPublic := node.modifiers.isPublic
  isPrivate := node.modifiers.isPrivate
  isInterface := node.modifiers.isInterface
  isAbstract := node.modifiers.isAbstract

theorem isResolved_identify (method : MethodReference) :
    (resolver.identify method).isResolved = resolver.attributes method := by
  unfold identify MethodIdentity.isResolved artifactOf attributes
  cases method.declaringClass.scope.isAttributable <;> rfl

end ArtifactResolver

/-! ## Entering it -/

namespace Document

/-- Whether one of the entries is of a class of the name. -/
def names (classes : SortedSet ClassEntry) (name : String) : Bool :=
  classes.toList.any (fun entry => entry.name == name)

theorem names_iff {classes : SortedSet ClassEntry} {name : String} :
    names classes name = true ↔ ∃ entry ∈ classes, entry.name = name := by
  simp only [names, List.any_eq_true, beq_iff_eq]
  rfl

/-- The entries with that of a class in its hierarchy, unless one of them has its name. -/
def addClass (resolver : ArtifactResolver) (classes : SortedSet ClassEntry)
    (located : ClassHierarchy × ClassNode) : SortedSet ClassEntry :=
  if names classes located.2.qualifiedName then classes
  else classes.insert (resolver.classEntry located.1 located.2)

/-- The document with an artifact. -/
def enterArtifact (document : Document) (artifact : ArtifactRecord) : Document :=
  { document with artifacts := document.artifacts.insert artifact }

/-- The document with a class, unless it has one of that name. -/
def enterClass (resolver : ArtifactResolver) (hierarchy : ClassHierarchy) (document : Document)
    (node : ClassNode) : Document :=
  { document with classes := addClass resolver document.classes (hierarchy, node) }

/-- The document with a call, in the half that the callee belongs to. -/
def enterEdge (resolver : ArtifactResolver) (document : Document) (edge : CallEdge) : Document :=
  if resolver.attributes edge.callee then
    { document with resolvedCalls := document.resolvedCalls.insert (resolver.callEntry edge) }
  else
    { document with unresolvedCalls := document.unresolvedCalls.insert (resolver.callEntry edge) }

end Document

namespace Package

open MethodRegistry

variable {registry : MethodRegistry} {package : Package}

/-! ## A registry that has grown -/

theorem identity_of_extends {id : MethodId} {identity : MethodIdentity}
    (denotes : package.methods.Denotes id identity) (grown : registry.Extends package.methods) :
    registry.identity id = package.methods.identity id :=
  (denotes.of_extends grown).identity_eq.trans denotes.identity_eq.symm

theorem callEntries_of_extends {calls : SortedSet Call} {attributed : Bool}
    (half : HalfDenotes package.methods calls attributed)
    (grown : registry.Extends package.methods) :
    SortedSet.ofList (calls.toList.map { package with methods := registry }.callEntry) =
      SortedSet.ofList (calls.toList.map package.callEntry) := by
  refine SortedSet.ofList_map_congr fun call there => ?_
  obtain ⟨source, target, leaves, arrives, -⟩ := half call there
  simp only [callEntry, Package.identity, identity_of_extends leaves grown,
    identity_of_extends arrives grown]

theorem mem_classRecords_iff {record : ClassRecord} :
    record ∈ package.classRecords ↔ ∃ name, package.classRecord? name = some record := by
  simp only [classRecords, SortedMap.values, List.mem_map, classRecord?, SortedMap.get?_eq_some_iff]
  constructor
  · rintro ⟨⟨name, _⟩, there, rfl⟩
    exact ⟨name, there⟩
  · rintro ⟨name, there⟩
    exact ⟨(name, record), there, rfl⟩

theorem Coherent.classEntry_of_extends (coherent : package.Coherent)
    (grown : registry.Extends package.methods) {record : ClassRecord}
    (there : record ∈ package.classRecords) :
    { package with methods := registry }.classEntry record = package.classEntry record := by
  obtain ⟨name, found⟩ := mem_classRecords_iff.mp there
  have same : SortedSet.ofList
        (record.expectedCalls.toList.map { package with methods := registry }.expectedEntry) =
      SortedSet.ofList (record.expectedCalls.toList.map package.expectedEntry) := by
    refine SortedSet.ofList_map_congr fun call member => ?_
    obtain ⟨edge, leaves, arrives, -⟩ := coherent.expected name record found call member
    simp only [expectedEntry, Package.identity, identity_of_extends leaves grown,
      identity_of_extends arrives grown]
  simp only [classEntry, same]

/-- **Methods that nothing mentions do not show.** -/
theorem Coherent.document_of_extends (coherent : package.Coherent)
    (grown : registry.Extends package.methods) :
    { package with methods := registry }.document = package.document := by
  have classes : package.classRecords.map { package with methods := registry }.classEntry =
      package.classRecords.map package.classEntry :=
    List.map_congr_left fun record there => coherent.classEntry_of_extends grown there
  have resolved := callEntries_of_extends coherent.resolved grown
  have unresolved := callEntries_of_extends coherent.unresolved grown
  simp only [document, resolved, unresolved]
  exact congrArg (fun entries => { package.document with classes := SortedSet.ofList entries })
    classes

/-! ## Artifacts and calls -/

theorem document_addArtifact (package : Package) (artifact : ArtifactRecord) :
    (package.addArtifact artifact).document = package.document.enterArtifact artifact := rfl

theorem document_addCall (package : Package) (call : Call) :
    (package.addCall call).document =
      if package.isResolved call.target then
        { package.document with
          resolvedCalls := package.document.resolvedCalls.insert (package.callEntry call) }
      else
        { package.document with
          unresolvedCalls := package.document.unresolvedCalls.insert (package.callEntry call) } := by
  unfold addCall
  split
  · exact congrArg (fun calls => { package.document with resolvedCalls := calls })
      (SortedSet.ofList_map_insert package.resolvedCalls package.callEntry call)
  · exact congrArg (fun calls => { package.document with unresolvedCalls := calls })
      (SortedSet.ofList_map_insert package.unresolvedCalls package.callEntry call)

/-- **Inserting an edge enters its call.** -/
theorem Coherent.document_insertEdge (coherent : package.Coherent) (resolver : ArtifactResolver)
    (edge : CallEdge) :
    (package.insertEdge resolver edge).1.document = package.document.enterEdge resolver edge := by
  obtain ⟨registry, call, grown, source, target, type, same⟩ :=
    insertEdge_spec resolver package edge
  -- Between entering the two methods and adding the call, the document stays what it was.
  let entered : Package := { package with methods := registry }
  have unchanged : entered.document = package.document := coherent.document_of_extends grown
  have half : entered.isResolved call.target = resolver.attributes edge.callee :=
    (isResolved_of_denotes target).trans (resolver.isResolved_identify edge.callee)
  have entry : entered.callEntry call = resolver.callEntry edge := by
    simp only [callEntry, Package.identity, ArtifactResolver.callEntry, entered,
      source.identity_eq, target.identity_eq, type]
  calc (package.insertEdge resolver edge).1.document
      = (entered.addCall call).document := by rw [same]
    _ = package.document.enterEdge resolver edge := by
        rw [document_addCall, half, entry, unchanged]
        rfl

theorem Coherent.document_insertEdges (coherent : package.Coherent) (resolver : ArtifactResolver)
    (edges : List CallEdge) :
    (package.insertEdges resolver edges).1.document =
      edges.foldl (Document.enterEdge resolver) package.document := by
  induction edges generalizing package with
  | nil => rfl
  | cons edge rest ih =>
      rw [insertEdges_cons, List.foldl_cons, ← coherent.document_insertEdge]
      exact ih (coherent.insertEdge resolver edge)

/-! ## Classes -/

theorem expectedEntry_of_denotes {call : ExpectedCall} {edge : ExpectedEdge}
    (denotes : package.methods.DenotesCall call edge) : package.expectedEntry call = edge.entry := by
  simp only [expectedEntry, Package.identity, ExpectedEdge.entry, denotes.1.identity_eq,
    denotes.2.1.identity_eq]

theorem expectedEntries_of_realizes {calls : SortedSet ExpectedCall} {edges : List ExpectedEdge}
    (realizes : package.methods.Realizes calls edges) :
    SortedSet.ofList (calls.toList.map package.expectedEntry) =
      SortedSet.ofList (edges.map ExpectedEdge.entry) := by
  apply SortedSet.ext
  intro entry
  rw [SortedSet.mem_ofList_map, SortedSet.mem_ofList, List.mem_map]
  constructor
  · rintro ⟨call, there, rfl⟩
    obtain ⟨edge, listed, denotes⟩ := realizes.sound call there
    exact ⟨edge, listed, (expectedEntry_of_denotes denotes).symm⟩
  · rintro ⟨edge, listed, rfl⟩
    obtain ⟨call, there, denotes⟩ := realizes.complete edge listed
    exact ⟨call, there, expectedEntry_of_denotes denotes⟩

/-- A record with the outline of a class, whose calls realize the class's edges, is the class's
entry. -/
theorem classEntry_of_realizes {resolver : ArtifactResolver} {hierarchy : ClassHierarchy}
    {node : ClassNode} {record : ClassRecord} (outline : record.outline = resolver.outline node)
    (realizes : package.methods.Realizes record.expectedCalls
      (resolver.expectedEdges hierarchy node)) :
    package.classEntry record = resolver.classEntry hierarchy node := by
  have whole : record =
      { resolver.outline node with expectedCalls := record.expectedCalls } := by
    rw [← outline]
    rfl
  unfold classEntry
  rw [expectedEntries_of_realizes realizes, whole]
  rfl

theorem document_addClassRecord {record : ClassRecord}
    (absent : package.classRecord? record.name = none) :
    (package.addClassRecord record).document =
      { package.document with
        classes := package.document.classes.insert (package.classEntry record) } := by
  have classes : (package.addClassRecord record).document.classes =
      package.document.classes.insert (package.classEntry record) := by
    apply SortedSet.ext
    intro entry
    simp only [document, SortedSet.mem_insert, SortedSet.mem_ofList, List.mem_map,
      mem_classRecords_iff, classRecord?_addClassRecord]
    constructor
    · rintro ⟨other, ⟨name, there⟩, rfl⟩
      split at there
      · cases there
        exact .inl rfl
      · exact .inr ⟨other, ⟨name, there⟩, rfl⟩
    · rintro (rfl | ⟨other, ⟨name, there⟩, rfl⟩)
      · exact ⟨record, ⟨record.name, by rw [if_pos rfl]⟩, rfl⟩
      · have differs := ne_of_absent there absent
        exact ⟨other, ⟨name, by rw [if_neg differs]; exact there⟩, rfl⟩
  exact congrArg (fun entries => { package.document with classes := entries }) classes

/-- A name has a record exactly when the document has an entry of that name. -/
theorem Coherent.names_document (coherent : package.Coherent) (name : String) :
    Document.names package.document.classes name = (package.classRecord? name).isSome := by
  rw [Bool.eq_iff_iff, Document.names_iff, Option.isSome_iff_exists]
  simp only [document, SortedSet.mem_ofList, List.mem_map, mem_classRecords_iff]
  constructor
  · rintro ⟨_, ⟨record, ⟨key, there⟩, rfl⟩, rfl⟩
    obtain rfl : record.name = key := coherent.named key record there
    exact ⟨record, there⟩
  · rintro ⟨record, there⟩
    exact ⟨_, ⟨record, ⟨name, there⟩, rfl⟩, coherent.named name record there⟩

variable (resolver : ArtifactResolver) (hierarchy : ClassHierarchy)

/-- **Inserting a class enters it, unless its name has an entry.** -/
theorem Coherent.document_insertClass (coherent : package.Coherent) (node : ClassNode) :
    (package.insertClass resolver hierarchy node).value.1.document =
      package.document.enterClass resolver hierarchy node := by
  unfold Document.enterClass Document.addClass
  rw [coherent.names_document]
  rcases insertClass_cases resolver hierarchy package node with
    ⟨kept, there, same⟩ | ⟨absent, new⟩
  · rw [same, there]
    rfl
  · let draft := draftClass resolver hierarchy node package.methods
    let entered : Package := { package with methods := draft.methods }
    have unchanged : entered.document = package.document :=
      coherent.document_of_extends (draftClass_extends resolver hierarchy node package.methods)
    have entry : entered.classEntry draft.record = resolver.classEntry hierarchy node :=
      classEntry_of_realizes (outline_draftClass resolver hierarchy node package.methods)
        (draftClass_realizes resolver hierarchy node package.methods)
    have unnamed : entered.classRecord? draft.record.name = none := by
      rw [name_draftClass]
      exact absent
    rw [new, absent]
    calc (entered.addClassRecord draft.record).document
        = { entered.document with
            classes := entered.document.classes.insert (entered.classEntry draft.record) } :=
          document_addClassRecord unnamed
      _ = { package.document with
            classes := package.document.classes.insert (resolver.classEntry hierarchy node) } := by
          rw [unchanged, entry]

theorem Coherent.document_insertClasses (coherent : package.Coherent) (nodes : List ClassNode) :
    (package.insertClasses resolver hierarchy nodes).value.1.document =
      nodes.foldl (Document.enterClass resolver hierarchy) package.document := by
  induction nodes generalizing package with
  | nil => rfl
  | cons node rest ih =>
      rw [value_insertClasses_cons, List.foldl_cons, ← coherent.document_insertClass]
      exact ih (coherent.insertClass resolver hierarchy node)

end Package

end ProgramModel
