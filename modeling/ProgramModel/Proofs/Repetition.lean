/-
# ProgramModel.Proofs.Repetition -- insertions that are made again, and insertions in parts

No operation takes a method, a record or a call away (`Ledger.apply_grows`), so what an insertion
has left is there after all that follows it (`Ledger.run_grows_of_mem`).  A hierarchy has left a
record for each of its names (`covers_insertClasses`), and a call graph a call for each of its edges
(`calls_insertEdges`).  Inserting a class whose name has a record changes nothing, whoever it is
attributed to; nor does inserting an edge whose call is there, for its ends are found under the ids
of the call and the call is in the half of its target (`Coherent.insertEdge_of_carried`).  So an
insertion that is made again adds nothing, however much has been inserted since
(`repeated_insertions_add_nothing`).

The resolver is part of what a call graph says: under another one its edges may have other ends.
Hierarchies are repeated under any resolver, for records go by names.
-/
import ProgramModel.Proofs.CallPhase

namespace ProgramModel

set_option autoImplicit false

namespace Package

variable {package later : Package}

/-! ## Hierarchies that have been inserted -/

/-- Every class of the list has a record of its name. -/
def Covers (package : Package) (nodes : List ClassNode) : Prop :=
  ∀ node ∈ nodes, ∃ record, package.classRecord? node.qualifiedName = some record

theorem Covers.of_extends {nodes : List ClassNode} (covers : package.Covers nodes)
    (grown : later.Extends package) : later.Covers nodes := by
  intro node listed
  obtain ⟨record, there⟩ := covers node listed
  exact ⟨record, grown.classes _ _ there⟩

variable (resolver : ArtifactResolver) (hierarchy : ClassHierarchy)

/-- A class that has been inserted has a record, be it its own or that of another one. -/
theorem exists_record_insertClass (package : Package) (node : ClassNode) :
    ∃ record, (package.insertClass resolver hierarchy node).value.1.classRecord?
      node.qualifiedName = some record := by
  cases before : package.classRecord? node.qualifiedName with
  | some kept =>
      exact ⟨kept, (insertClass_extends resolver hierarchy package node).classes _ _ before⟩
  | none =>
      obtain ⟨record, there, -⟩ := insertClass_records resolver hierarchy before
      exact ⟨record, there⟩

/-- **A hierarchy leaves a record for every name in it.** -/
theorem covers_insertClasses (package : Package) (nodes : List ClassNode) :
    (package.insertClasses resolver hierarchy nodes).value.1.Covers nodes := by
  induction nodes generalizing package with
  | nil => exact fun node listed => absurd listed List.not_mem_nil
  | cons node rest ih =>
      rw [value_insertClasses_cons]
      let next := (package.insertClass resolver hierarchy node).value.1
      intro other listed
      rcases List.mem_cons.mp listed with rfl | behind
      · obtain ⟨record, there⟩ := exists_record_insertClass resolver hierarchy package other
        exact ⟨record, (insertClasses_extends resolver hierarchy next rest).classes _ _ there⟩
      · exact ih next other behind

/-- **Classes whose names have records add nothing.** -/
theorem Covers.insertClasses {nodes : List ClassNode} (covers : package.Covers nodes) :
    (package.insertClasses resolver hierarchy nodes).value = (package, 0) := by
  induction nodes with
  | nil => rfl
  | cons node rest ih =>
      obtain ⟨record, there⟩ := covers node List.mem_cons_self
      rcases insertClass_cases resolver hierarchy package node with ⟨-, -, same⟩ | ⟨absent, -⟩
      · simp only [value_insertClasses_cons, same,
          ih fun other behind => covers other (List.mem_cons_of_mem _ behind)]
        rfl
      · rw [there] at absent
        cases absent

/-! ## Call graphs that have been inserted -/

/-- There is a call for every edge of the list. -/
def CarriesAll (package : Package) (edges : List CallEdge) : Prop :=
  ∀ edge ∈ edges, ∃ call ∈ package.calls, package.Carries resolver call edge

variable {resolver} {edges : List CallEdge}

theorem CarriesAll.of_keeps (carries : package.CarriesAll resolver edges)
    (grown : later.Extends package) (keeps : later.KeepsCalls package) :
    later.CarriesAll resolver edges := by
  intro edge listed
  obtain ⟨call, there, same⟩ := carries edge listed
  exact ⟨call, keeps.calls there, same.of_extends grown.methods⟩

/-- A call that is there is in its half, so it is not new and adding it changes nothing. -/
theorem Coherent.addCall_of_mem (coherent : package.Coherent) {call : Call}
    (there : call ∈ package.calls) :
    package.addCall call = package ∧ package.isNewCall call = false := by
  unfold Package.addCall isNewCall
  rcases List.mem_append.mp there with resolved | unresolved
  · obtain ⟨-, target, -, arrives, attributed⟩ := coherent.resolved call resolved
    have half : package.isResolved call.target = true :=
      (isResolved_of_denotes arrives).trans attributed
    have known : package.resolvedCalls.contains call = true := SortedSet.contains_iff.mpr resolved
    simp only [half, if_true, known, SortedSet.insert_of_mem resolved, Bool.not_true, and_self]
  · obtain ⟨-, target, -, arrives, attributed⟩ := coherent.unresolved call unresolved
    have half : package.isResolved call.target = false :=
      (isResolved_of_denotes arrives).trans attributed
    have known : package.unresolvedCalls.contains call = true :=
      SortedSet.contains_iff.mpr unresolved
    simp only [half, Bool.false_eq_true, if_false, known, SortedSet.insert_of_mem unresolved,
      Bool.not_true, and_self]

/-- **An edge whose call is there adds nothing**: neither its ends nor the call are new. -/
theorem Coherent.insertEdge_of_carried (coherent : package.Coherent) {edge : CallEdge} {call : Call}
    (there : call ∈ package.calls) (carries : package.Carries resolver call edge) :
    package.insertEdge resolver edge = (package, false) := by
  have source : resolver.resolve package.methods edge.caller = (call.source, package.methods) :=
    MethodRegistry.intern_of_denotes carries.source
  have target : resolver.resolve package.methods edge.callee = (call.target, package.methods) :=
    MethodRegistry.intern_of_denotes carries.target
  obtain ⟨same, old⟩ := coherent.addCall_of_mem there
  simp only [Package.insertEdge, source, target, ← carries.type]
  exact Prod.ext same old

theorem Coherent.insertEdges_of_carried (coherent : package.Coherent)
    (carries : package.CarriesAll resolver edges) :
    package.insertEdges resolver edges = (package, 0) := by
  induction edges with
  | nil => rfl
  | cons edge rest ih =>
      obtain ⟨call, there, same⟩ := carries edge List.mem_cons_self
      rw [insertEdges_cons, coherent.insertEdge_of_carried there same]
      simp only [ih fun other behind => carries other (List.mem_cons_of_mem _ behind)]
      rfl

/-- **Edges are inserted one after the other**, so they may be inserted in parts. -/
theorem insertEdges_append (resolver : ArtifactResolver) (package : Package)
    (front back : List CallEdge) :
    package.insertEdges resolver (front ++ back) =
      let first := package.insertEdges resolver front
      let second := first.1.insertEdges resolver back
      (second.1, first.2 + second.2) := by
  induction front generalizing package with
  | nil => simp [insertEdges]
  | cons edge rest ih =>
      rw [List.cons_append, insertEdges_cons, insertEdges_cons]
      simp only [ih, Nat.add_assoc]

/-! ## Nothing goes away -/

theorem insertClasses_keepsCalls (package : Package) (resolver : ArtifactResolver)
    (hierarchy : ClassHierarchy) (nodes : List ClassNode) :
    (package.insertClasses resolver hierarchy nodes).value.1.KeepsCalls package := by
  refine insertClasses_induction (motive := fun later => later.KeepsCalls package) resolver
    hierarchy package ?_ (KeepsCalls.refl package) nodes
  intro later node keeps
  rcases insertClass_cases resolver hierarchy later node with ⟨-, -, same⟩ | ⟨-, new⟩
  · rw [same]
    exact keeps
  · rw [new]
    exact ⟨keeps.resolved, keeps.unresolved⟩

end Package

namespace Ledger

/-- **An operation takes nothing away.** -/
theorem apply_grows (ledger : Ledger) (operation : Operation) :
    (ledger.apply operation).package.Extends ledger.package ∧
      (ledger.apply operation).package.KeepsCalls ledger.package := by
  cases operation with
  | insertHierarchy resolver hierarchy =>
      exact ⟨Package.insertClasses_extends resolver hierarchy ledger.package hierarchy.classes,
        Package.insertClasses_keepsCalls ledger.package resolver hierarchy hierarchy.classes⟩
  | insertCallGraph resolver graph =>
      exact ⟨Package.insertEdges_extends resolver ledger.package graph.edges,
        Package.insertEdges_keepsCalls resolver ledger.package graph.edges⟩
  | addArtifact artifact =>
      exact ⟨⟨MethodRegistry.Extends.refl _, fun _ _ there => there⟩, fun _ there => there,
        fun _ there => there⟩
  | editMetadata id change =>
      have grown := MethodRegistry.modifyMetadata_extends ledger.package.methods id change
      exact ⟨ledger.package.extends_of_methods grown, fun _ there => there, fun _ there => there⟩

theorem foldl_apply_grows (ledger : Ledger) (operations : List Operation) :
    (operations.foldl apply ledger).package.Extends ledger.package ∧
      (operations.foldl apply ledger).package.KeepsCalls ledger.package := by
  induction operations generalizing ledger with
  | nil => exact ⟨Package.Extends.refl _, Package.KeepsCalls.refl _⟩
  | cons operation rest ih =>
      obtain ⟨first, keeps⟩ := apply_grows ledger operation
      obtain ⟨grown, still⟩ := ih (ledger.apply operation)
      exact ⟨grown.trans first, still.trans keeps⟩

/-- **What an operation has left is there at the end**, whatever was done before it and after. -/
theorem run_grows_of_mem {operations : List Operation} {operation : Operation}
    (listed : operation ∈ operations) :
    ∃ before : Ledger, (run operations).package.Extends (before.apply operation).package ∧
      (run operations).package.KeepsCalls (before.apply operation).package := by
  obtain ⟨earlier, later, rfl⟩ := List.append_of_mem listed
  refine ⟨run earlier, ?_⟩
  rw [run, List.foldl_append, List.foldl_cons]
  exact foldl_apply_grows ((run earlier).apply operation) later

end Ledger

/-- **An insertion that is made again adds nothing.**  After any operations, in any order and under
any resolvers, a hierarchy that is among them may be inserted once more under whatever resolver, and
a call graph under the resolver that it was inserted under: the count is zero, and methods,
metadata, records and calls stay exactly as they are.  And a call graph may be inserted in parts,
into any package: the parts lead to the same package, and their counts add up to its count. -/
theorem repeated_insertions_add_nothing (operations : List Operation) :
    let package := (Ledger.run operations).package
    (∀ resolver hierarchy, .insertHierarchy resolver hierarchy ∈ operations →
      ∀ again, (package.insertHierarchy again hierarchy).value = (package, 0)) ∧
    (∀ resolver graph, .insertCallGraph resolver graph ∈ operations →
      (package.insertCallGraph resolver graph).value = (package, 0)) ∧
    (∀ (state : Package) (resolver : ArtifactResolver) (front back : List CallEdge),
      let first := (state.insertCallGraph resolver ⟨front⟩).value
      let second := (first.1.insertCallGraph resolver ⟨back⟩).value
      (state.insertCallGraph resolver ⟨front ++ back⟩).value = (second.1, first.2 + second.2)) := by
  intro package
  refine ⟨?_, ?_, ?_⟩
  · intro resolver hierarchy listed again
    obtain ⟨before, grown, -⟩ := Ledger.run_grows_of_mem listed
    have left := Package.covers_insertClasses resolver hierarchy before.package hierarchy.classes
    have covers : package.Covers hierarchy.classes := left.of_extends grown
    exact covers.insertClasses again hierarchy
  · intro resolver graph listed
    obtain ⟨before, grown, keeps⟩ := Ledger.run_grows_of_mem listed
    obtain ⟨left, -⟩ := Package.calls_insertEdges resolver before.package graph.edges
    have carries : package.CarriesAll resolver graph.edges :=
      Package.CarriesAll.of_keeps left grown keeps
    have coherent : package.Coherent := (Ledger.balanced_run operations).coherent
    exact coherent.insertEdges_of_carried carries
  · intro state resolver front back
    exact Package.insertEdges_append resolver state front back

/-- A call between two classes of the application. -/
def innerGraph : CallGraph where
  edges := [⟨⟨⟨"a.A", .application⟩, "run()V"⟩, ⟨⟨"a.B", .application⟩, "stop()V"⟩, .virtual⟩]

/-- The hierarchy comes once more under another resolver, and the call graph under its own, after
the metadata of a method that both of them mention has been edited. -/
theorem repeated_insertions_add_nothing_edited :
    let package := (Ledger.run [.insertHierarchy .unknowing Package.mutualSuperclasses,
      .insertCallGraph (.owning "g:a:1") innerGraph,
      .editMetadata ⟨0⟩ (·.insert "seen" "yes")]).package
    (package.insertHierarchy (.owning "g:a:1") Package.mutualSuperclasses).value = (package, 0) ∧
      (package.insertCallGraph (.owning "g:a:1") innerGraph).value = (package, 0) := by
  intro package
  obtain ⟨hierarchies, graphs, -⟩ := repeated_insertions_add_nothing
    [.insertHierarchy .unknowing Package.mutualSuperclasses,
      .insertCallGraph (.owning "g:a:1") innerGraph, .editMetadata ⟨0⟩ (·.insert "seen" "yes")]
  have first :=
    hierarchies .unknowing Package.mutualSuperclasses List.mem_cons_self (.owning "g:a:1")
  have second := graphs (.owning "g:a:1") innerGraph (List.mem_cons_of_mem _ List.mem_cons_self)
  exact ⟨first, second⟩

/-- Under another resolver a call graph may have something to add. -/
example :
    let package := (Ledger.run [.insertCallGraph .unknowing innerGraph]).package
    (package.insertCallGraph (.owning "g:a:1") innerGraph).value.2 = 1 := by decide +kernel

end ProgramModel
