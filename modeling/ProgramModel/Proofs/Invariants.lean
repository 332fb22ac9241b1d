/-
# ProgramModel.Proofs.Invariants -- what a registry keeps throughout a build

A build does two things to its registry: it enters the methods that its resolver makes of
references, and it notes the declared kinds of some.  A property that both keep (`Keeps`) is
kept by a class, by a hierarchy and by a call graph, and it holds of the registry of every
build if it holds of the empty one (`Keeps.ofAnalyses`).
-/
import ProgramModel.Proofs.Builds
import ProgramModel.Proofs.CallPhase

namespace ProgramModel

set_option autoImplicit false

/-- Entering what the resolver makes of a reference keeps the property, and so does noting the
kind of a method. -/
structure ArtifactResolver.Keeps (resolver : ArtifactResolver)
    (property : MethodRegistry → Prop) : Prop where
  resolve : ∀ registry method, property registry →
    property (resolver.resolve registry method).2
  tagKind : ∀ registry id kind, property registry → property (registry.tagKind id kind)

namespace ArtifactResolver.Keeps

open Package

variable {resolver : ArtifactResolver} {property : MethodRegistry → Prop} {package : Package}

theorem declare (keeps : resolver.Keeps property) {draft : Draft} (before : property draft.methods)
    (node : ClassNode) (supertypes : Supertypes) (method : MethodDeclaration) :
    property (draft.declare resolver node supertypes method).methods := by
  let resolved := resolver.resolve draft.methods (node.methodReference method.selector)
  let entered : Draft :=
    { methods := resolved.2.tagKind resolved.1 (node.kindOf method)
      record := { draft.record with methods := draft.record.methods.insert method.selector } }
  have start : property entered.methods :=
    keeps.tagKind _ _ _ (keeps.resolve draft.methods _ before)
  by_cases target : node.isDispatchTarget method = true
  · have expected := List.foldlRecOn (motive := fun draft : Draft => property draft.methods)
      (supertypes.sources method.selector)
      (Draft.expect resolver method.selector resolved.1) start
      fun draft before candidate _ => keeps.resolve draft.methods
        (candidate.1.methodReference method.selector) before
    simpa only [Draft.declare, if_pos target] using expected
  · simpa only [Draft.declare, if_neg target] using start

theorem draftClass (keeps : resolver.Keeps property) {methods : MethodRegistry}
    (before : property methods) (hierarchy : ClassHierarchy) (node : ClassNode) :
    property (Package.draftClass resolver hierarchy node methods).methods := by
  refine List.foldlRecOn (motive := fun draft : Draft => property draft.methods) _ _ before ?_
  intro draft before method _
  exact keeps.declare before node (hierarchy.supertypes node) method

theorem insertClass (keeps : resolver.Keeps property) (before : property package.methods)
    (hierarchy : ClassHierarchy) (node : ClassNode) :
    property (package.insertClass resolver hierarchy node).value.1.methods := by
  rcases insertClass_cases resolver hierarchy package node with ⟨kept, -, same⟩ | ⟨-, new⟩
  · rw [same]
    exact before
  · rw [new]
    exact keeps.draftClass before hierarchy node

theorem enterHierarchy (keeps : resolver.Keeps property) (before : property package.methods)
    (input : CompleteAnalysis) : property (package.enterHierarchy resolver input).methods := by
  refine insertClasses_induction (motive := fun package => property package.methods) resolver
    input.hierarchy package ?_ before input.hierarchy.classes
  intro package node before
  exact keeps.insertClass before input.hierarchy node

theorem insertEdge (keeps : resolver.Keeps property) (before : property package.methods)
    (edge : CallEdge) : property (package.insertEdge resolver edge).1.methods := by
  have methods : (package.insertEdge resolver edge).1.methods =
      (resolver.resolve (resolver.resolve package.methods edge.caller).2 edge.callee).2 :=
    methods_addCall _ _
  rw [methods]
  exact keeps.resolve _ edge.callee (keeps.resolve package.methods edge.caller before)

theorem enterCallGraph (keeps : resolver.Keeps property) (before : property package.methods)
    (input : CompleteAnalysis) : property (package.enterCallGraph resolver input).methods := by
  refine insertEdges_induction (motive := fun package => property package.methods) resolver ?_
    before input.edges
  intro package edge before
  exact keeps.insertEdge before edge

/-- **What the writes of a build keep holds of the registry of every build.** -/
theorem ofAnalyses (keeps : resolver.Keeps property) (empty : property ∅)
    {analyses : List ArtifactAnalysis} {built : Logged Package}
    (success : Package.ofAnalyses resolver analyses = .ok built) :
    property built.value.methods := by
  obtain ⟨inputs, -, result⟩ := complete_of_ofAnalyses resolver success
  rw [result]
  have started : property (inputs.foldl enterArtifact {}).methods :=
    List.foldlRecOn (motive := fun package : Package => property package.methods) _ _ empty
      fun _ before _ _ => before
  have classified := List.foldlRecOn (motive := fun package : Package => property package.methods)
    inputs (Package.enterHierarchy resolver) started
    fun _ before input _ => keeps.enterHierarchy before input
  exact List.foldlRecOn (motive := fun package : Package => property package.methods) inputs
    (Package.enterCallGraph resolver) classified
    fun _ before input _ => keeps.enterCallGraph before input

end ArtifactResolver.Keeps

end ProgramModel
