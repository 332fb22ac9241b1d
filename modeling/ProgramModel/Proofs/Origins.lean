/-
# ProgramModel.Proofs.Origins -- every record comes from a class

Operations come in any order, each with a resolver of its own, and a class may be met with
whatever records others have left.  What holds of every record all the same is that some
class is behind it (`Traced`): the outline is that of the class, and the expected calls are
the edges that the hierarchy of the class leads to it.  One operation keeps this
(`Traced.apply`), hence so does any list of them (`traced_run`).

So what can be said of the edges of one class in one hierarchy can be said of every
record.  Two such edges are equal when their ends are (`expectedEdge_unique`): a supertype is
what its own name finds, and it is a superclass or an interface, never both.
-/
import ProgramModel.Proofs.Documents
import ProgramModel.Proofs.Ledger

namespace ProgramModel

set_option autoImplicit false

/-! ## The edges to one class -/

namespace ArtifactResolver

variable {resolver : ArtifactResolver} {hierarchy : ClassHierarchy} {node : ClassNode}

/-- **Edges to one class do not differ in their kind alone.** -/
theorem expectedEdge_unique {one other : ExpectedEdge}
    (first : one ∈ resolver.expectedEdges hierarchy node)
    (second : other ∈ resolver.expectedEdges hierarchy node) (same : one.entry = other.entry) :
    one = other := by
  obtain ⟨supertype, selector, ⟨-, above, -⟩, leaves, -⟩ := mem_expectedEdges_iff.mp first
  obtain ⟨another, symbol, ⟨-, also, -⟩, departs, -⟩ := mem_expectedEdges_iff.mp second
  have sources : one.source = other.source := congrArg ExpectedEntry.source same
  have targets : one.target = other.target := congrArg ExpectedEntry.target same
  -- The two supertypes have one name, and the name finds both.
  have named : supertype.qualifiedName = another.qualifiedName := by
    rw [leaves, departs] at sources
    exact congrArg MethodIdentity.owner sources
  have finds := ClassHierarchy.find?_of_hasSupertype above
  rw [named, ClassHierarchy.find?_of_hasSupertype also] at finds
  obtain rfl : another = supertype := Option.some.inj finds
  have kinds : one.kind = other.kind := above.kind_unique also
  cases one
  cases other
  simp_all

end ArtifactResolver

/-! ## Records and their classes -/

namespace Package

/-- Every record is that of a class of its name. -/
def Traced (package : Package) : Prop :=
  ∀ name record, package.classRecord? name = some record →
    ∃ resolver hierarchy node, ClassNode.qualifiedName node = name ∧
      package.Records resolver hierarchy node

theorem traced_empty : Traced {} := by
  intro name record there
  cases there

variable {package later : Package}

/-- A package that goes on from another with the same records is traced, too. -/
theorem Traced.of_extends (traced : package.Traced) (grown : later.Extends package)
    (same : later.classes = package.classes) : later.Traced := by
  intro name record there
  unfold classRecord? at there
  rw [same] at there
  obtain ⟨resolver, hierarchy, node, named, records⟩ := traced name record there
  exact ⟨resolver, hierarchy, node, named, records.of_extends grown⟩

theorem Traced.insertClass (traced : package.Traced) (resolver : ArtifactResolver)
    (hierarchy : ClassHierarchy) (node : ClassNode) :
    (package.insertClass resolver hierarchy node).value.1.Traced := by
  intro name record there
  have grown := insertClass_extends resolver hierarchy package node
  cases before : package.classRecord? name with
  | some kept =>
      obtain ⟨own, around, origin, named, records⟩ := traced name kept before
      exact ⟨own, around, origin, named, records.of_extends grown⟩
  | none =>
      -- Only the class that is inserted can have brought the record.
      by_cases same : name = node.qualifiedName
      · subst same
        exact ⟨resolver, hierarchy, node, rfl, insertClass_records resolver hierarchy before⟩
      · rw [insertClass_other resolver hierarchy package node same, before] at there
        cases there

theorem Traced.insertClasses (traced : package.Traced) (resolver : ArtifactResolver)
    (hierarchy : ClassHierarchy) (nodes : List ClassNode) :
    (package.insertClasses resolver hierarchy nodes).value.1.Traced := by
  refine insertClasses_induction resolver hierarchy package ?_ traced nodes
  intro package node traced
  exact traced.insertClass resolver hierarchy node

/-- **One operation leaves every record with a class.** -/
theorem Traced.apply {ledger : Ledger} (traced : ledger.package.Traced) (operation : Operation) :
    (ledger.apply operation).package.Traced := by
  cases operation with
  | insertHierarchy resolver hierarchy =>
      exact traced.insertClasses resolver hierarchy hierarchy.classes
  | insertCallGraph resolver graph =>
      exact traced.of_extends (insertEdges_extends resolver ledger.package graph.edges)
        (classes_insertEdges resolver ledger.package graph.edges)
  | addArtifact artifact => exact traced
  | editMetadata id change =>
      have grown := MethodRegistry.modifyMetadata_extends ledger.package.methods id change
      exact traced.of_extends (ledger.package.extends_of_methods grown) rfl

theorem traced_run (operations : List Operation) : (Ledger.run operations).package.Traced := by
  refine Ledger.run_induction (motive := fun ledger => ledger.package.Traced) traced_empty ?_
    operations
  intro ledger operation traced
  exact traced.apply operation

/-- A record expects the edges of a class. -/
theorem Traced.realizes (traced : package.Traced) {name : String} {record : ClassRecord}
    (there : package.classRecord? name = some record) :
    ∃ (resolver : ArtifactResolver) (hierarchy : ClassHierarchy) (node : ClassNode),
      package.methods.Realizes record.expectedCalls (resolver.expectedEdges hierarchy node) := by
  obtain ⟨resolver, hierarchy, node, rfl, records⟩ := traced name record there
  obtain ⟨kept, recorded, -, realizes⟩ := records
  obtain rfl : kept = record := Option.some.inj (recorded.symm.trans there)
  exact ⟨resolver, hierarchy, node, realizes⟩

end Package

end ProgramModel
