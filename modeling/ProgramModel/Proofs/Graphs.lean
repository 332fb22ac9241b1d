/-
# ProgramModel.Proofs.Graphs -- what the graph of a package tells

The text of a graph is read back (`readGraph_eq_some_iff`) if no key of an attribute runs into
its value.  The keys of edges are fixed words, and the keys of a vertex are that of its label
and those of the method's metadata.  A build writes one key there, that of a method's kind, so
the graph of a build is told by its text down to the last name (`graph_of_build_is_read`).

Metadata may also be edited, under any key.  A key without an equals sign before a quote does
no harm (`metadata_is_read`).  One with them does: it may spell the end of its own value and
all of a further entry, and two methods with different metadata are shown alike
(`metadata_is_confused`).
-/
import ProgramModel.Proofs.DotReading
import ProgramModel.Proofs.Kinds
import ProgramModel.View

namespace ProgramModel

set_option autoImplicit false

open Dot (Attribute Statement attributeList)

/-! ## Metadata in a graph -/

/-- No key of the metadata runs into its value. -/
def Metadata.Clear (metadata : Metadata) : Prop := ∀ entry ∈ metadata.toList, Dot.Clear entry.1

/-- The attributes that metadata are shown as. -/
def Metadata.attributes (metadata : Metadata) : List Attribute :=
  metadata.toList.map fun (key, value) => ⟨key, value⟩

theorem Metadata.attributes_injective {one other : Metadata}
    (same : one.attributes = other.attributes) : one = other := by
  refine SortedMap.toList_injective (List.map_injective_iff.mpr ?_ same)
  rintro ⟨key, value⟩ ⟨key', value'⟩ equal
  cases equal
  rfl

theorem Method.attributes_vertex (method : Method) :
    method.vertex.attributes = ⟨"label", method.identity.label⟩ :: method.metadata.attributes :=
  rfl

/-- A vertex can be read back if and only if the keys of its metadata are clear. -/
theorem Method.legible_vertex (method : Method) :
    method.vertex.Legible ↔ method.metadata.Clear := by
  have label : Dot.Clear "label" := by decide
  unfold Statement.Legible Dot.Legible
  rw [method.attributes_vertex, List.forall_mem_cons, Metadata.attributes, List.forall_mem_map]
  constructor
  · rintro ⟨-, -, each⟩
    exact each
  · intro clear
    exact ⟨List.cons_ne_nil _ _, label, clear⟩

/-- **Metadata is told by its attributes if its keys are clear**: the attributes of a vertex are
read as the label and the entries, whatever stands behind, and those of different metadata are
different lists. -/
theorem metadata_is_read (one other : Method) (clear : one.metadata.Clear) :
    (∀ rest, Dot.readAttributes (attributeList one.vertex.attributes ++ rest) =
      some (⟨"label", one.identity.label⟩ :: one.metadata.attributes, rest)) ∧
    (other.metadata.Clear → one.metadata ≠ other.metadata →
      attributeList one.vertex.attributes ≠ attributeList other.vertex.attributes) := by
  have tells := one.legible_vertex.mpr clear
  refine ⟨fun rest => (Dot.readAttributes_reads _ _ rest).mpr ⟨tells, rfl⟩, ?_⟩
  intro clear' differ same
  have tells' := other.legible_vertex.mpr clear'
  have equal := Dot.readAttributes_reads.injective tells tells' same
  rw [one.attributes_vertex, other.attributes_vertex] at equal
  exact differ (Metadata.attributes_injective (List.cons.inj equal).2)

/-- A method with one thing noted about it. -/
def notedMethod (artifact : Option String) (key value : String) : Method :=
  { identity := ⟨"a.A", "run()V", artifact⟩
    metadata := (∅ : Metadata).insert key value }

/-- Brackets, commas and equals signs in keys are no obstacle, nor is anything in values. -/
theorem metadata_is_read_marked :
    let one := notedMethod none "]; x=y, z" "=\"\\\"];"
    let other := notedMethod none "]; x=y" "=\"\\\"];"
    one.metadata.Clear ∧ other.metadata.Clear ∧ one.metadata ≠ other.metadata ∧
      Dot.readAttributes (attributeList one.vertex.attributes) =
        some ([⟨"label", "a.A.run()V"⟩, ⟨"]; x=y, z", "=\"\\\"];"⟩], []) ∧
      attributeList one.vertex.attributes ≠ attributeList other.vertex.attributes := by
  intro one other
  have clear : one.metadata.Clear := by
    unfold Metadata.Clear
    decide +kernel
  have clear' : other.metadata.Clear := by
    unfold Metadata.Clear
    decide +kernel
  have differ : one.metadata ≠ other.metadata := by decide +kernel
  obtain ⟨reads, apart⟩ := metadata_is_read one other clear
  have read := reads []
  rw [List.append_nil] at read
  exact ⟨clear, clear', differ, read, apart clear' differ⟩

/-- A key with the end of its own value and a further entry in it is shown as two entries.  So a
method noted with that one key and one noted with the two have different metadata and the same list
of attributes. -/
theorem metadata_is_confused :
    let one := notedMethod (some "g:a:1") "note=\"x\", since" "y"
    let other : Method :=
      { identity := ⟨"a.A", "run()V", none⟩
        metadata := ((∅ : Metadata).insert "note" "x").insert "since" "y" }
    one.identity.label = other.identity.label ∧ one.metadata ≠ other.metadata ∧
      attributeList one.vertex.attributes = attributeList other.vertex.attributes := by
  decide +kernel

/-! ## Graphs of builds -/

/-- The key of a kind is clear. -/
theorem Method.NotesKind.clear {method : Method} (notes : method.NotesKind) :
    method.metadata.Clear := by
  intro entry there
  rw [notes.toList_metadata, Option.mem_toList, Option.map_eq_some_iff] at there
  obtain ⟨kind, -, rfl⟩ := there
  have key : Dot.Clear Metadata.kindKey := by decide
  exact key

theorem Method.NotesKind.vertex_eq {method : Method} (notes : method.NotesKind) :
    method.vertex = .vertex method.identity.display
      (⟨"label", method.identity.owner ++ "." ++ method.identity.symbol⟩ ::
        (method.kind.map fun kind => ⟨"type", kind⟩).toList) := by
  rw [Method.vertex, notes.toList_metadata]
  cases method.kind <;> rfl

theorem MethodRegistry.NotesKinds.of_mem {registry : MethodRegistry} (notes : registry.NotesKinds)
    {method : Method} (there : method ∈ registry.methods) : method.NotesKind := by
  obtain ⟨place, found⟩ := List.mem_iff_getElem?.mp there
  exact notes ⟨place⟩ method found

/-- The keys of edges are fixed, and so are those of vertices with kinds for metadata. -/
theorem Package.legible_graph {package : Package} (notes : package.methods.NotesKinds)
    (name : String) : (package.graph name).Legible := by
  have label : Dot.Clear "label" := by decide
  have style : Dot.Clear "style" := by decide
  intro statement there
  simp only [Package.graph, List.mem_append, List.mem_map] at there
  obtain (⟨method, listed, rfl⟩ | ⟨call, -, rfl⟩) | ⟨call, -, rfl⟩ := there
  · exact method.legible_vertex.mpr (notes.of_mem listed).clear
  · refine ⟨List.cons_ne_nil _ _, List.forall_mem_cons.mpr ⟨label, List.forall_mem_map.mpr ?_⟩⟩
    intro value _
    exact style
  · refine ⟨List.cons_ne_nil _ _, ?_⟩
    simp only [Statement.attributes, Package.expectedEdge, List.forall_mem_cons]
    exact ⟨label, style, List.forall_mem_nil _⟩

/-- **The text of a build's graph is read as its methods, calls and expected calls, and nothing
else**: a vertex a method, in the order of the registry, with the method's label and kind; then an
edge a call, resolved ones first, bold if it dispatches at run time; then an edge an expected call,
class by class, dashed or dotted by its kind.  No other text is read so, whatever characters the
names have.  The halves of the calls are sorted, and both ends of an edge are methods. -/
theorem graph_of_build_is_read {resolver : ArtifactResolver} {analyses : List ArtifactAnalysis}
    {built : Logged Package} (success : Package.ofAnalyses resolver analyses = .ok built)
    (name : String) :
    let package := built.value
    let idOf := fun place => (package.identity place).display
    let vertices := package.methods.methods.map fun method =>
      Statement.vertex method.identity.display
        (⟨"label", method.identity.owner ++ "." ++ method.identity.symbol⟩ ::
          (method.kind.map fun kind => ⟨"type", kind⟩).toList)
    let calls := (package.resolvedCalls.toList ++ package.unresolvedCalls.toList).map fun call =>
      Statement.edge (idOf call.source) (idOf call.target)
        (⟨"label", call.type.label⟩ ::
          if call.type = .interface ∨ call.type = .virtual then [⟨"style", "bold"⟩] else [])
    let expected := package.classRecords.flatMap fun record =>
      record.expectedCalls.toList.map fun call =>
        Statement.edge (idOf call.source) (idOf call.target)
          [⟨"label", call.kind.label⟩,
            ⟨"style", if call.kind = .implements then "dashed" else "dotted"⟩]
    (∀ text : String, Dot.readGraph text.toList = some ⟨name, vertices ++ calls ++ expected⟩ ↔
      text = (View.graph name).text package) ∧
    package.resolvedCalls.toList.Pairwise (fun one next => compare one next = .lt) ∧
    package.unresolvedCalls.toList.Pairwise (fun one next => compare one next = .lt) ∧
    (∀ call ∈ package.calls, package.Knows call.source ∧ package.Knows call.target) ∧
    (∀ record ∈ package.classRecords, ∀ call ∈ record.expectedCalls,
      package.Knows call.source ∧ package.Knows call.target) := by
  intro package idOf vertices calls expected
  have notes : package.methods.NotesKinds := Package.notesKinds_ofAnalyses success
  have coherent : package.Coherent := Package.coherent_ofAnalyses success
  have shown : vertices = package.methods.methods.map Method.vertex :=
    List.map_congr_left fun method there => ((notes.of_mem there).vertex_eq).symm
  have called : calls = package.calls.map package.callEdge := by
    refine List.map_congr_left fun call _ => ?_
    unfold Package.callEdge
    cases call.type <;> rfl
  have awaited : expected = package.expectedCalls.map package.expectedEdge := by
    rw [Package.expectedCalls, List.map_flatMap]
    refine List.flatMap_congr fun record _ => List.map_congr_left fun call _ => ?_
    unfold Package.expectedEdge
    cases call.kind <;> rfl
  have graph : Dot.Graph.mk name (vertices ++ calls ++ expected) = package.graph name := by
    rw [shown, called, awaited]
    rfl
  refine ⟨fun text => ?_, package.resolvedCalls.ascending, package.unresolvedCalls.ascending,
    fun call there => coherent.knows_call there, ?_⟩
  · rw [graph, Dot.readGraph_eq_some_iff, and_iff_right (Package.legible_graph notes name)]
    exact ⟨fun same => String.ofList_toList.symm.trans (congrArg String.ofList same),
      fun same => by rw [same]; exact String.toList_ofList⟩
  · intro record there call member
    obtain ⟨key, found⟩ := Package.mem_classRecords_iff.mp there
    exact coherent.knows_expected found member

/-- An interface, and a class that implements the method of it. -/
def markedInterface : ClassNode :=
  { reference := ⟨"b\\B", .application⟩
    methods := [{ selector := "run -> ];()V", isAbstract := true }]
    modifiers := { isInterface := true } }

def markedClass : ClassNode :=
  { reference := ⟨"a\"A", .application⟩
    interfaces := [markedInterface.reference]
    methods := [{ selector := "run -> ];()V" }] }

def markedHierarchy : ClassHierarchy where
  classes := [markedClass, markedInterface]

/-- An artifact with the two, and a call from the class to a method that no class declares. -/
def markedInput : CompleteAnalysis :=
  ⟨⟨"g", "a", "1"⟩, markedHierarchy,
    ⟨[⟨⟨⟨"a\"A", .application⟩, "run -> ];()V"⟩, ⟨⟨"c", .application⟩, "m\n()V"⟩, .interface⟩]⟩⟩

theorem supertypes_markedClass :
    markedHierarchy.supertypes markedClass = ⟨[], [markedInterface]⟩ := by
  have chain : markedHierarchy.superclassChain [markedClass.qualifiedName]
      markedClass.superclassName = ([], ["a\"A"]) := by
    decide +kernel
  have known : markedHierarchy.find? "b\\B" = some markedInterface := by decide
  have closure : markedHierarchy.interfaceClosure ["a\"A"] ["b\\B"] = [markedInterface] := by
    rw [ClassHierarchy.interfaceClosure_known (by decide) known]
    show [markedInterface] ++ markedHierarchy.interfaceClosure _ [] = _
    rw [ClassHierarchy.interfaceClosure_nil, List.append_nil]
  rw [ClassHierarchy.supertypes, chain]
  exact congrArg (Supertypes.mk []) closure

/-- Quotes, backslashes, arrows and line breaks in names come back as they were, in vertices with
and without a kind, in the edge of a call and in that of an expected call. -/
theorem graph_of_build_is_read_marked :
    let resolver := ArtifactResolver.unknowing
    ∃ built, Package.ofAnalyses resolver [markedInput.analysis] = .ok built ∧
      Dot.readGraph ((View.graph "\";\n").text built.value).toList =
        some
          { name := "\";\n"
            statements :=
              [.vertex "a\"A.run -> ];()V"
                  [⟨"label", "a\"A.run -> ];()V"⟩, ⟨"type", "IMPLEMENTATION"⟩],
                .vertex "b\\B.run -> ];()V"
                  [⟨"label", "b\\B.run -> ];()V"⟩, ⟨"type", "INTERFACE"⟩],
                .vertex "c.m\n()V" [⟨"label", "c.m\n()V"⟩],
                .edge "a\"A.run -> ];()V" "c.m\n()V"
                  [⟨"label", "INTERFACE"⟩, ⟨"style", "bold"⟩],
                .edge "b\\B.run -> ];()V" "a\"A.run -> ];()V"
                  [⟨"label", "IMPLEMENTS"⟩, ⟨"style", "dashed"⟩]] } := by
  intro resolver
  obtain ⟨built, success, result⟩ := Package.ofAnalyses_complete resolver [markedInput]
  have reads := (graph_of_build_is_read success "\";\n").1
  refine ⟨built, success, ((reads _).mpr rfl).trans ?_⟩
  have reached (input : CompleteAnalysis) : Package.assemble resolver [input] =
      Package.enterCallGraph resolver (Package.insertClasses resolver input.hierarchy
        input.hierarchy.classes (({} : Package).addArtifact input.artifact)).value.1 input := rfl
  have assembled : built.value =
      Package.enterCallGraph resolver (Package.insertClasses resolver markedHierarchy
        [markedClass, markedInterface] (({} : Package).addArtifact ⟨"g", "a", "1"⟩)).value.1
        markedInput := result.trans (reached markedInput)
  -- The walk over the interfaces does not evaluate, so what it finds is put in its place.
  simp only [Package.insertClasses, Package.insertClass, Package.draftClass,
    supertypes_markedClass] at assembled
  rw [assembled]
  decide +kernel

end ProgramModel
