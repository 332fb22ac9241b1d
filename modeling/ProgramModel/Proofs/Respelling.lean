/-
# ProgramModel.Proofs.Respelling -- a build does not see how types are spelled

Type names come into a build at six places: in references to classes, to their
superclasses and interfaces, at both ends of a call, and as keys of the table.  What is
compared there is never the spelling but the name that it is read as.

That is said here of a `Respelling`, which spells every reference anew without changing the
name or the scope.  Each step of a build commutes with it: a hierarchy that is respelled
finds the same classes, respelled (`find?_respell`), hence has the same supertypes
(`supertypes_respell`), hence leaves the same records and reports
(`insertClasses_respell`), and so on up to a whole build (`ofAnalyses_respell`).

Two bundles may be spelled differently in one place and alike in another, so no single
respelling need lead from one to the other.  But one leads from either to the same third
bundle, where every name has a fixed spelling (`fixedSpelling`).  From that, bundles that
differ in their spellings only are built alike (`spelling_does_not_matter`).
-/
import Mathlib.Data.List.Forall2
import ProgramModel.Proofs.Builds
import ProgramModel.Proofs.Files
import ProgramModel.Proofs.TypeNames

namespace ProgramModel

set_option autoImplicit false

/-! ## Spelling anew -/

/-- Another reference to the same type for each reference. -/
structure Respelling where
  spell : TypeReference → TypeReference
  name : ∀ type, (spell type).qualifiedName = type.qualifiedName
  scope : ∀ type, (spell type).scope = type.scope

variable (anew : Respelling)

def MethodReference.respell (method : MethodReference) : MethodReference :=
  { method with declaringClass := anew.spell method.declaringClass }

def ClassNode.respell (node : ClassNode) : ClassNode :=
  { node with
    reference := anew.spell node.reference
    superclass := node.superclass.map anew.spell
    interfaces := node.interfaces.map anew.spell }

def ClassHierarchy.respell (hierarchy : ClassHierarchy) : ClassHierarchy :=
  ⟨hierarchy.classes.map (ClassNode.respell anew)⟩

def CallEdge.respell (edge : CallEdge) : CallEdge :=
  { edge with
    caller := edge.caller.respell anew
    callee := edge.callee.respell anew }

def CallGraph.respell (graph : CallGraph) : CallGraph :=
  ⟨graph.edges.map (CallEdge.respell anew)⟩

def ArtifactAnalysis.respell (analysis : ArtifactAnalysis) : ArtifactAnalysis :=
  { analysis with
    hierarchy := analysis.hierarchy.map (ClassHierarchy.respell anew)
    callGraph := analysis.callGraph.map (CallGraph.respell anew) }

def CompleteAnalysis.respell (input : CompleteAnalysis) : CompleteAnalysis :=
  { input with
    hierarchy := input.hierarchy.respell anew
    callGraph := input.callGraph.respell anew }

/-! ## Classes -/

namespace ClassNode

variable (node : ClassNode)

@[simp] theorem qualifiedName_respell : (node.respell anew).qualifiedName = node.qualifiedName :=
  anew.name node.reference

@[simp] theorem superclassName_respell :
    (node.respell anew).superclassName = node.superclassName := by
  simp [superclassName, respell, Function.comp_def, anew.name]

@[simp] theorem interfaceNames_respell :
    (node.respell anew).interfaceNames = node.interfaceNames := by
  simp [interfaceNames, respell, Function.comp_def, anew.name]

@[simp] theorem declares?_respell (selector : String) :
    (node.respell anew).declares? selector = node.declares? selector := rfl

theorem methodReference_respell (selector : String) :
    (node.respell anew).methodReference selector = (node.methodReference selector).respell anew :=
  rfl

end ClassNode

namespace ClassHierarchy

variable (hierarchy : ClassHierarchy)

/-- **A look-up finds the same class, respelled.** -/
theorem find?_respell (name : String) :
    (hierarchy.respell anew).find? name = (hierarchy.find? name).map (ClassNode.respell anew) := by
  unfold find? respell
  rw [← List.map_reverse, List.find?_map]
  simp only [Function.comp_def, ClassNode.qualifiedName_respell]

theorem superclassChain_respell (visited : List String) (start : Option String) :
    (hierarchy.respell anew).superclassChain visited start =
      ((hierarchy.superclassChain visited start).1.map (ClassNode.respell anew),
        (hierarchy.superclassChain visited start).2) := by
  induction visited, start using superclassChain_induction hierarchy with
  | ends visited => simp
  | repeats visited name old => rw [superclassChain_visited old, superclassChain_visited old]; rfl
  | misses visited name fresh unknown =>
      have missing : (hierarchy.respell anew).find? name = none := by
        rw [find?_respell, unknown]
        rfl
      rw [superclassChain_unknown fresh unknown, superclassChain_unknown fresh missing]
      rfl
  | goesOn visited name node fresh known ih =>
      have found : (hierarchy.respell anew).find? name = some (node.respell anew) := by
        rw [find?_respell, known]
        rfl
      rw [superclassChain_known fresh known, superclassChain_known fresh found,
        ClassNode.superclassName_respell, ih]
      rfl

theorem interfaceClosure_respell (visited pending : List String) :
    (hierarchy.respell anew).interfaceClosure visited pending =
      (hierarchy.interfaceClosure visited pending).map (ClassNode.respell anew) := by
  induction visited, pending using interfaceClosure_induction hierarchy with
  | ends visited => simp
  | repeats visited name pending old ih =>
      rw [interfaceClosure_visited old, interfaceClosure_visited old, ih]
  | misses visited name pending fresh unknown ih =>
      have missing : (hierarchy.respell anew).find? name = none := by
        rw [find?_respell, unknown]
        rfl
      rw [interfaceClosure_unknown fresh unknown, interfaceClosure_unknown fresh missing, ih]
  | goesOn visited name pending node fresh known ih =>
      have found : (hierarchy.respell anew).find? name = some (node.respell anew) := by
        rw [find?_respell, known]
        rfl
      rw [interfaceClosure_known fresh known, interfaceClosure_known fresh found,
        ClassNode.interfaceNames_respell, ih]
      rfl

end ClassHierarchy

def Supertypes.respell (supertypes : Supertypes) : Supertypes :=
  ⟨supertypes.superclasses.map (ClassNode.respell anew),
    supertypes.interfaces.map (ClassNode.respell anew)⟩

/-- **A class has the same supertypes, respelled.** -/
theorem ClassHierarchy.supertypes_respell (hierarchy : ClassHierarchy) (node : ClassNode) :
    (hierarchy.respell anew).supertypes (node.respell anew) =
      (hierarchy.supertypes node).respell anew := by
  unfold supertypes Supertypes.respell
  simp only [ClassNode.qualifiedName_respell, ClassNode.superclassName_respell,
    ClassNode.interfaceNames_respell, superclassChain_respell, interfaceClosure_respell,
    List.flatMap_map]

/-- The supertypes from which calls are expected are the same, respelled. -/
theorem Supertypes.sources_respell (supertypes : Supertypes) (selector : String) :
    (supertypes.respell anew).sources selector =
      (supertypes.sources selector).map fun candidate =>
        (candidate.1.respell anew, candidate.2) := by
  have candidates : (supertypes.respell anew).candidates =
      supertypes.candidates.map fun candidate => (candidate.1.respell anew, candidate.2) := by
    simp [candidates, respell, Function.comp_def]
  unfold sources
  rw [candidates, List.filter_map]
  rfl

/-! ## Attributions -/

namespace ArtifactResolver

/-- The resolver answers alike for a reference and for the same reference respelled. -/
structure IgnoresSpelling (resolver : ArtifactResolver) (anew : Respelling) : Prop where
  ofClass : ∀ type, resolver.ofClass (anew.spell type) = resolver.ofClass type
  ofMethod : ∀ method, resolver.ofMethod (method.respell anew) = resolver.ofMethod method

variable {anew} {resolver : ArtifactResolver} (ignores : resolver.IgnoresSpelling anew)
include ignores

/-- **A method that is respelled is known by the same.** -/
theorem IgnoresSpelling.identify (method : MethodReference) :
    resolver.identify (method.respell anew) = resolver.identify method := by
  have owner : (method.respell anew).owner = method.owner := anew.name method.declaringClass
  have scope : (method.respell anew).declaringClass.scope = method.declaringClass.scope :=
    anew.scope method.declaringClass
  unfold ArtifactResolver.identify artifactOf
  rw [owner, scope, ignores.ofMethod]
  rfl

theorem IgnoresSpelling.resolve (registry : MethodRegistry) (method : MethodReference) :
    resolver.resolve registry (method.respell anew) = resolver.resolve registry method := by
  unfold ArtifactResolver.resolve
  rw [ignores.identify]

end ArtifactResolver

/-- An index looks types up by the names that they are read as. -/
theorem ArtifactIndex.ignoresSpelling (index : ArtifactIndex) :
    index.resolver.IgnoresSpelling anew where
  ofClass type := congrArg index.classes.get? (anew.name type)
  ofMethod method := congrArg index.classes.get? (anew.name method.declaringClass)

/-! ## Hierarchies -/

namespace Package

variable {anew} {resolver : ArtifactResolver} (ignores : resolver.IgnoresSpelling anew)
include ignores

theorem Draft.expect_respell (selector : String) (target : MethodId) (draft : Draft)
    (candidate : ClassNode × ExpectedKind) :
    draft.expect resolver selector target (candidate.1.respell anew, candidate.2) =
      draft.expect resolver selector target candidate := by
  unfold expect
  rw [ClassNode.methodReference_respell, ignores.resolve]

theorem Draft.declare_respell (node : ClassNode) (supertypes : Supertypes) (draft : Draft)
    (method : MethodDeclaration) :
    draft.declare resolver (node.respell anew) (supertypes.respell anew) method =
      draft.declare resolver node supertypes method := by
  have target : (node.respell anew).isDispatchTarget method = node.isDispatchTarget method := rfl
  have kind : (node.respell anew).kindOf method = node.kindOf method := rfl
  unfold declare
  simp only [ClassNode.methodReference_respell, ignores.resolve, target, kind,
    Supertypes.sources_respell, List.foldl_map, expect_respell ignores]

theorem blankRecord_respell (node : ClassNode) :
    blankRecord resolver (node.respell anew) = blankRecord resolver node := by
  have artifact : resolver.ofClass (node.respell anew).reference = resolver.ofClass node.reference :=
    ignores.ofClass node.reference
  unfold blankRecord
  rw [artifact, ClassNode.qualifiedName_respell, ClassNode.superclassName_respell,
    ClassNode.interfaceNames_respell]
  rfl

/-- **A class that is respelled is drafted to the same record, with the same methods.** -/
theorem draftClass_respell (hierarchy : ClassHierarchy) (node : ClassNode)
    (methods : MethodRegistry) :
    draftClass resolver (hierarchy.respell anew) (node.respell anew) methods =
      draftClass resolver hierarchy node methods := by
  unfold draftClass
  rw [ClassHierarchy.supertypes_respell, blankRecord_respell ignores]
  exact congrArg (fun step => node.methods.foldl step _) (funext fun draft => funext fun method =>
    Draft.declare_respell ignores node (hierarchy.supertypes node) draft method)

theorem insertClass_respell (hierarchy : ClassHierarchy) (package : Package) (node : ClassNode) :
    package.insertClass resolver (hierarchy.respell anew) (node.respell anew) =
      package.insertClass resolver hierarchy node := by
  have artifact : resolver.ofClass (node.respell anew).reference = resolver.ofClass node.reference :=
    ignores.ofClass node.reference
  unfold insertClass
  rw [ClassNode.qualifiedName_respell, artifact, draftClass_respell ignores]

theorem insertClasses_respell (hierarchy : ClassHierarchy) (nodes : List ClassNode)
    (package : Package) :
    package.insertClasses resolver (hierarchy.respell anew) (nodes.map (ClassNode.respell anew)) =
      package.insertClasses resolver hierarchy nodes := by
  induction nodes generalizing package with
  | nil => rfl
  | cons node rest ih =>
      rw [List.map_cons, insertClasses, insertClasses, insertClass_respell ignores]
      simp only [ih]

/-- **A hierarchy that is respelled leaves the same package, and reports the same.** -/
theorem insertHierarchy_respell (hierarchy : ClassHierarchy) (package : Package) :
    package.insertHierarchy resolver (hierarchy.respell anew) =
      package.insertHierarchy resolver hierarchy := by
  have classes : (hierarchy.respell anew).classes =
      hierarchy.classes.map (ClassNode.respell anew) := rfl
  unfold insertHierarchy
  rw [classes, insertClasses_respell ignores, List.length_map]

/-! ## Call graphs -/

theorem insertEdge_respell (package : Package) (edge : CallEdge) :
    package.insertEdge resolver (edge.respell anew) = package.insertEdge resolver edge := by
  unfold insertEdge CallEdge.respell
  simp only [ignores.resolve]

theorem insertEdges_respell (edges : List CallEdge) (package : Package) :
    package.insertEdges resolver (edges.map (CallEdge.respell anew)) =
      package.insertEdges resolver edges := by
  induction edges generalizing package with
  | nil => rfl
  | cons edge rest ih =>
      rw [List.map_cons, insertEdges, insertEdges, insertEdge_respell ignores]
      simp only [ih]

/-- **So does a call graph.** -/
theorem insertCallGraph_respell (graph : CallGraph) (package : Package) :
    package.insertCallGraph resolver (graph.respell anew) =
      package.insertCallGraph resolver graph := by
  have edges : (graph.respell anew).edges = graph.edges.map (CallEdge.respell anew) := rfl
  unfold insertCallGraph
  rw [edges, insertEdges_respell ignores, List.length_map]

end Package

/-! ## Builds -/

theorem ArtifactAnalysis.complete_respell (analysis : ArtifactAnalysis) :
    (analysis.respell anew).complete = analysis.complete.map (CompleteAnalysis.respell anew) := by
  obtain ⟨artifact, hierarchy, callGraph⟩ := analysis
  cases hierarchy <;> cases callGraph <;> rfl

theorem ArtifactAnalysis.mapM_complete_respell (analyses : List ArtifactAnalysis) :
    (analyses.map (ArtifactAnalysis.respell anew)).mapM ArtifactAnalysis.complete =
      (analyses.mapM ArtifactAnalysis.complete).map (List.map (CompleteAnalysis.respell anew)) := by
  induction analyses with
  | nil => rfl
  | cons analysis rest ih =>
      rw [List.map_cons, List.mapM_cons, List.mapM_cons, complete_respell, ih]
      cases analysis.complete with
      | error error => rfl
      | ok input => cases rest.mapM ArtifactAnalysis.complete <;> rfl

namespace PackageBuilder

/-- An insertion hands the resolver on. -/
theorem resolver_of_insertHierarchy {builder : PackageBuilder} {hierarchy : ClassHierarchy}
    {step : Logged (PackageBuilder × Nat)}
    (inserts : builder.insertHierarchy hierarchy = .ok step) :
    step.value.1.resolver = builder.resolver := by
  unfold insertHierarchy at inserts
  split at inserts
  · cases inserts
  · cases inserts
    rfl

theorem resolver_of_insertHierarchies {builder : PackageBuilder} {inputs : List CompleteAnalysis}
    {done : Logged PackageBuilder} (inserts : builder.insertHierarchies inputs = .ok done) :
    done.value.resolver = builder.resolver := by
  induction inputs generalizing builder done with
  | nil =>
      cases inserts
      rfl
  | cons input rest ih =>
      rw [insertHierarchies] at inserts
      obtain ⟨step, first, inserts⟩ := bind_eq_ok.mp inserts
      obtain ⟨further, others, inserts⟩ := bind_eq_ok.mp inserts
      cases inserts
      exact (ih others).trans (resolver_of_insertHierarchy first)

variable {anew} {builder : PackageBuilder} (ignores : builder.resolver.IgnoresSpelling anew)
include ignores

theorem insertHierarchy_respell (hierarchy : ClassHierarchy) :
    builder.insertHierarchy (hierarchy.respell anew) = builder.insertHierarchy hierarchy := by
  unfold insertHierarchy
  rw [Package.insertHierarchy_respell ignores]

theorem insertHierarchies_respell (inputs : List CompleteAnalysis) :
    builder.insertHierarchies (inputs.map (CompleteAnalysis.respell anew)) =
      builder.insertHierarchies inputs := by
  induction inputs generalizing builder with
  | nil => rfl
  | cons input rest ih =>
      have first : builder.insertHierarchy (input.respell anew).hierarchy =
          builder.insertHierarchy input.hierarchy := insertHierarchy_respell ignores input.hierarchy
      rw [List.map_cons, insertHierarchies, insertHierarchies, first]
      cases inserts : builder.insertHierarchy input.hierarchy with
      | error error => rfl
      | ok step =>
          have kept : step.value.1.resolver.IgnoresSpelling anew := by
            rw [resolver_of_insertHierarchy inserts]
            exact ignores
          simp only [bind, Except.bind, ih kept]
          rfl

theorem insertCallGraphs_respell (inputs : List CompleteAnalysis) :
    builder.insertCallGraphs (inputs.map (CompleteAnalysis.respell anew)) =
      builder.insertCallGraphs inputs := by
  induction inputs generalizing builder with
  | nil => rfl
  | cons input rest ih =>
      have first : builder.insertCallGraph (input.respell anew).callGraph =
          builder.insertCallGraph input.callGraph := by
        unfold insertCallGraph
        exact congrArg (· >>= _) (Package.insertCallGraph_respell ignores input.callGraph _)
      have kept : (builder.insertCallGraph input.callGraph).value.1.resolver.IgnoresSpelling anew :=
        ignores
      rw [List.map_cons, insertCallGraphs, insertCallGraphs, first]
      have others := ih kept
      have values := congrArg Logged.value others
      have logs := congrArg (fun further => [Event.callGraphStarted input.artifact] ++
        ((builder.insertCallGraph input.callGraph).log ++ further.log)) others
      exact Logged.ext values logs

end PackageBuilder

/-- **A build under a resolver that ignores spellings is the same for respelled analyses**, with the
same reports or the same error. -/
theorem Package.ofAnalyses_respell {resolver : ArtifactResolver}
    (ignores : resolver.IgnoresSpelling anew) (analyses : List ArtifactAnalysis) :
    ofAnalyses resolver (analyses.map (ArtifactAnalysis.respell anew)) =
      ofAnalyses resolver analyses := by
  have artifacts : (analyses.map (ArtifactAnalysis.respell anew)).map ArtifactAnalysis.artifact =
      analyses.map ArtifactAnalysis.artifact := by
    rw [List.map_map]
    rfl
  unfold ofAnalyses
  rw [ArtifactAnalysis.mapM_complete_respell, artifacts]
  cases analyses.mapM ArtifactAnalysis.complete with
  | error error => rfl
  | ok inputs =>
      let started := PackageBuilder.setArtifacts { resolver } (analyses.map ArtifactAnalysis.artifact)
      have same : started.value.resolver = resolver := by
        rw [PackageBuilder.value_setArtifacts]
      have start : started.value.resolver.IgnoresSpelling anew := by
        rw [same]
        exact ignores
      simp only [Except.map, bind, Except.bind]
      rw [PackageBuilder.insertHierarchies_respell start]
      cases classifies : started.value.insertHierarchies inputs with
      | error error => rfl
      | ok classified =>
          have kept : classified.value.resolver.IgnoresSpelling anew := by
            rw [PackageBuilder.resolver_of_insertHierarchies classifies]
            exact start
          simp only [PackageBuilder.insertCallGraphs_respell kept]

/-! ## Bundles that differ in their spellings -/

/-- The same text twice, or two spellings of one dotted name. -/
def TypeName.Alike (name other : String) : Prop :=
  name = other ∨ ∃ dotted, IsDotted dotted ∧ Spells dotted name ∧ Spells dotted other

theorem TypeName.Alike.qualifiedName_eq {name other : String} (alike : Alike name other) :
    qualifiedName name = qualifiedName other := by
  rcases alike with rfl | ⟨dotted, isDotted, one, another⟩
  · rfl
  · rw [qualifiedName_of_spells isDotted one, qualifiedName_of_spells isDotted another]

theorem TypeName.alike_of_spells {name spelling : String} (dotted : IsDotted name)
    (spells : Spells name spelling) : Alike name spelling :=
  .inr ⟨name, dotted, ⟨[], name.toList, [], .dotted, by simp, by simp, by simp⟩, spells⟩

structure TypeReference.Alike (type other : TypeReference) : Prop where
  name : TypeName.Alike type.name other.name
  scope : type.scope = other.scope

structure MethodReference.Alike (method other : MethodReference) : Prop where
  declaringClass : method.declaringClass.Alike other.declaringClass
  selector : method.selector = other.selector

structure ClassNode.Alike (node other : ClassNode) : Prop where
  reference : node.reference.Alike other.reference
  superclass : Option.Rel TypeReference.Alike node.superclass other.superclass
  interfaces : List.Forall₂ TypeReference.Alike node.interfaces other.interfaces
  methods : node.methods = other.methods
  modifiers : node.modifiers = other.modifiers

structure CallEdge.Alike (edge other : CallEdge) : Prop where
  caller : edge.caller.Alike other.caller
  callee : edge.callee.Alike other.callee
  dispatch : edge.dispatch = other.dispatch

def ClassHierarchy.Alike (hierarchy other : ClassHierarchy) : Prop :=
  List.Forall₂ ClassNode.Alike hierarchy.classes other.classes

def CallGraph.Alike (graph other : CallGraph) : Prop :=
  List.Forall₂ CallEdge.Alike graph.edges other.edges

structure ArtifactAnalysis.Alike (analysis other : ArtifactAnalysis) : Prop where
  artifact : analysis.artifact = other.artifact
  hierarchy : Option.Rel ClassHierarchy.Alike analysis.hierarchy other.hierarchy
  callGraph : Option.Rel CallGraph.Alike analysis.callGraph other.callGraph

/-- The bundles differ in spellings of type names only.  A table is listed in the order of its
keys, which their spellings change; and no two keys of it may be read as one name. -/
structure AnalysisBundle.Alike (bundle other : AnalysisBundle) : Prop where
  analyses : List.Forall₂ ArtifactAnalysis.Alike bundle.analyses other.analyses
  table : ∃ entries, entries.Perm other.classArtifacts.toList ∧
    List.Forall₂ (fun entry another => TypeName.Alike entry.1 another.1 ∧ entry.2 = another.2)
      bundle.classArtifacts.toList entries
  distinct : (bundle.classArtifacts.keys.map qualifiedName).Nodup

/-! ## One spelling for all -/

/-- Every type under a spelling that depends on its name only. -/
noncomputable def fixedSpelling : Respelling where
  spell type := ⟨Function.invFun qualifiedName type.qualifiedName, type.scope⟩
  name type := Function.invFun_eq ⟨type.name, rfl⟩
  scope _ := rfl

theorem TypeReference.Alike.spell_eq {type other : TypeReference} (alike : type.Alike other) :
    fixedSpelling.spell type = fixedSpelling.spell other := by
  have names : type.qualifiedName = other.qualifiedName := alike.name.qualifiedName_eq
  unfold fixedSpelling
  dsimp only
  rw [names, alike.scope]

section Images

variable {α β : Type} {related : α → α → Prop} {image : α → β}

theorem map_eq_of_forall₂ (same : ∀ one other, related one other → image one = image other)
    {list others : List α} (pairs : List.Forall₂ related list others) :
    list.map image = others.map image := by
  induction pairs with
  | nil => rfl
  | cons head _ ih => rw [List.map_cons, List.map_cons, same _ _ head, ih]

theorem map_eq_of_rel (same : ∀ one other, related one other → image one = image other)
    {value other : Option α} (pair : Option.Rel related value other) :
    value.map image = other.map image := by
  cases pair with
  | none => rfl
  | some alike => exact congrArg some (same _ _ alike)

end Images

theorem MethodReference.Alike.respell_eq {method other : MethodReference}
    (alike : method.Alike other) : method.respell fixedSpelling = other.respell fixedSpelling := by
  unfold respell
  rw [alike.declaringClass.spell_eq, alike.selector]

theorem ClassNode.Alike.respell_eq {node other : ClassNode} (alike : node.Alike other) :
    node.respell fixedSpelling = other.respell fixedSpelling := by
  have spell (type other : TypeReference) (alike : type.Alike other) := alike.spell_eq
  unfold respell
  rw [alike.reference.spell_eq, map_eq_of_rel spell alike.superclass,
    map_eq_of_forall₂ spell alike.interfaces, alike.methods, alike.modifiers]

theorem CallEdge.Alike.respell_eq {edge other : CallEdge} (alike : edge.Alike other) :
    edge.respell fixedSpelling = other.respell fixedSpelling := by
  unfold respell
  rw [alike.caller.respell_eq, alike.callee.respell_eq, alike.dispatch]

theorem ClassHierarchy.Alike.respell_eq {hierarchy other : ClassHierarchy}
    (alike : hierarchy.Alike other) :
    hierarchy.respell fixedSpelling = other.respell fixedSpelling := by
  have each (node other : ClassNode) (alike : node.Alike other) := alike.respell_eq
  unfold respell
  rw [map_eq_of_forall₂ each alike]

theorem CallGraph.Alike.respell_eq {graph other : CallGraph} (alike : graph.Alike other) :
    graph.respell fixedSpelling = other.respell fixedSpelling := by
  have each (edge other : CallEdge) (alike : edge.Alike other) := alike.respell_eq
  unfold respell
  rw [map_eq_of_forall₂ each alike]

theorem ArtifactAnalysis.Alike.respell_eq {analysis other : ArtifactAnalysis}
    (alike : analysis.Alike other) :
    analysis.respell fixedSpelling = other.respell fixedSpelling := by
  have classes (hierarchy other : ClassHierarchy) (alike : hierarchy.Alike other) :=
    alike.respell_eq
  have calls (graph other : CallGraph) (alike : graph.Alike other) := alike.respell_eq
  unfold respell
  rw [alike.artifact, map_eq_of_rel classes alike.hierarchy, map_eq_of_rel calls alike.callGraph]

/-! ## Tables -/

/-- An index is the map of its table's entries, with the keys as they are read. -/
theorem ArtifactIndex.classes_ofTable (table : SortedMap String String) :
    (ofTable table).classes =
      SortedMap.ofList (table.toList.map fun entry => (qualifiedName entry.1, entry.2)) := by
  unfold ofTable SortedMap.ofList
  rw [List.foldl_map]
  exact (List.foldl_hom classes fun _ _ => rfl).symm

/-- **Bundles that differ in spellings have one index.** -/
theorem AnalysisBundle.Alike.index_eq {bundle other : AnalysisBundle} (alike : bundle.Alike other) :
    bundle.index = other.index := by
  obtain ⟨entries, permuted, pairs⟩ := alike.table
  have read : bundle.classArtifacts.toList.map (fun entry => (qualifiedName entry.1, entry.2)) =
      entries.map fun entry => (qualifiedName entry.1, entry.2) :=
    map_eq_of_forall₂ (fun _ _ same => Prod.ext same.1.qualifiedName_eq same.2) pairs
  have distinct := alike.distinct
  refine congrArg ArtifactIndex.mk (?_ : bundle.index.classes = other.index.classes)
  unfold index
  rw [ArtifactIndex.classes_ofTable, ArtifactIndex.classes_ofTable, read]
  refine SortedMap.ofList_perm (permuted.map _) ?_
  rw [← read, List.map_map]
  rw [SortedMap.keys, List.map_map] at distinct
  exact distinct

/-! ## The main result -/

/-- **How types are spelled does not matter.**  A dotted name, the name between `L` and `;` with
slashes for dots and, for a name with a dot, the same without the `;` are all read as the name,
with whatever blanks around them.  And bundles that differ in nothing else than such spellings, in
any of the places where a type is named, are built alike: to the same package, with the same
reports, or to the same error. -/
theorem spelling_does_not_matter :
    (∀ name spelling, TypeName.IsDotted name → TypeName.Spells name spelling →
      qualifiedName spelling = name) ∧
    ∀ bundle other : AnalysisBundle, bundle.Alike other →
      Package.ofBundle bundle = Package.ofBundle other := by
  refine ⟨fun _ _ => qualifiedName_of_spells, ?_⟩
  intro bundle other alike
  have ignores := ArtifactIndex.ignoresSpelling fixedSpelling bundle.index
  have analyses : bundle.analyses.map (ArtifactAnalysis.respell fixedSpelling) =
      other.analyses.map (ArtifactAnalysis.respell fixedSpelling) :=
    map_eq_of_forall₂ (fun _ _ same => same.respell_eq) alike.analyses
  calc Package.ofBundle bundle
      = Package.ofAnalyses bundle.index.resolver
          (bundle.analyses.map (ArtifactAnalysis.respell fixedSpelling)) :=
        (Package.ofAnalyses_respell fixedSpelling ignores bundle.analyses).symm
    _ = Package.ofAnalyses bundle.index.resolver
          (other.analyses.map (ArtifactAnalysis.respell fixedSpelling)) := by rw [analyses]
    _ = Package.ofAnalyses bundle.index.resolver other.analyses :=
        Package.ofAnalyses_respell fixedSpelling ignores other.analyses
    _ = Package.ofBundle other := by rw [alike.index_eq]; rfl

/-- A class, its superclass and interface, and a call, all in dotted names. -/
def dottedAnalysis : CompleteAnalysis :=
  ⟨⟨"g", "a", "1"⟩,
    ⟨[{ reference := ⟨"a.A", .application⟩, superclass := some ⟨"Main", .application⟩,
        interfaces := [⟨"c.C", .primordial⟩], methods := [{ selector := "run()V" }] }]⟩,
    ⟨[⟨⟨⟨"Main", .application⟩, "main()V"⟩, ⟨⟨"a.A", .application⟩, "run()V"⟩, .virtual⟩]⟩⟩

/-- The same in other spellings, with `a.A` in two of them. -/
def mixedAnalysis : CompleteAnalysis :=
  ⟨⟨"g", "a", "1"⟩,
    ⟨[{ reference := ⟨" La/A", .application⟩, superclass := some ⟨"LMain; ", .application⟩,
        interfaces := [⟨"Lc/C;", .primordial⟩], methods := [{ selector := "run()V" }] }]⟩,
    ⟨[⟨⟨⟨"LMain;", .application⟩, "main()V"⟩, ⟨⟨"La/A;", .application⟩, "run()V"⟩, .virtual⟩]⟩⟩

def dottedBundle : AnalysisBundle where
  classArtifacts := SortedMap.ofList [("Main", "g:m:1"), ("a.A", "g:a:1")]
  analyses := [dottedAnalysis.analysis]

/-- In this table the keys stand in the other order. -/
def mixedBundle : AnalysisBundle where
  classArtifacts := SortedMap.ofList [("LMain;", "g:m:1"), ("\tLa/A", "g:a:1")]
  analyses := [mixedAnalysis.analysis]

theorem isDotted_a : TypeName.IsDotted "a.A" := by decide +kernel

theorem spells_tab : TypeName.Spells "a.A" "\tLa/A" :=
  TypeName.spells_of_parts ['\t'] "La/A".toList [] (by decide +kernel)

theorem alike_mixedBundle : dottedBundle.Alike mixedBundle := by
  have main : TypeName.IsDotted "Main" := by decide +kernel
  have ofMain : TypeName.Alike "Main" "LMain;" :=
    TypeName.alike_of_spells main
      (TypeName.spells_of_parts [] "LMain;".toList [] (by decide +kernel))
  have ofMainBlank : TypeName.Alike "Main" "LMain; " :=
    TypeName.alike_of_spells main
      (TypeName.spells_of_parts [] "LMain;".toList [' '] (by decide +kernel))
  have ofClass : TypeName.Alike "a.A" " La/A" :=
    TypeName.alike_of_spells isDotted_a
      (TypeName.spells_of_parts [' '] "La/A".toList [] (by decide +kernel))
  have ofClassKey : TypeName.Alike "a.A" "\tLa/A" :=
    TypeName.alike_of_spells isDotted_a spells_tab
  have ofCallee : TypeName.Alike "a.A" "La/A;" :=
    TypeName.alike_of_spells isDotted_a
      (TypeName.spells_of_parts [] "La/A;".toList [] (by decide +kernel))
  have ofInterface : TypeName.Alike "c.C" "Lc/C;" :=
    TypeName.alike_of_spells (by decide +kernel)
      (TypeName.spells_of_parts [] "Lc/C;".toList [] (by decide +kernel))
  have classes : dottedAnalysis.hierarchy.Alike mixedAnalysis.hierarchy :=
    .cons ⟨⟨ofClass, rfl⟩, .some ⟨ofMainBlank, rfl⟩, .cons ⟨ofInterface, rfl⟩ .nil, rfl, rfl⟩ .nil
  have calls : dottedAnalysis.callGraph.Alike mixedAnalysis.callGraph :=
    .cons ⟨⟨⟨ofMain, rfl⟩, rfl⟩, ⟨⟨ofCallee, rfl⟩, rfl⟩, rfl⟩ .nil
  have listed : mixedBundle.classArtifacts.toList = [("\tLa/A", "g:a:1"), ("LMain;", "g:m:1")] := by
    decide +kernel
  have plain : dottedBundle.classArtifacts.toList = [("Main", "g:m:1"), ("a.A", "g:a:1")] := by
    decide +kernel
  refine ⟨.cons ⟨rfl, .some classes, .some calls⟩ .nil, ?_, by decide +kernel⟩
  rw [listed, plain]
  exact ⟨_, List.Perm.swap .., .cons ⟨ofMain, rfl⟩ (.cons ⟨ofClassKey, rfl⟩ .nil)⟩

/-- Both bundles are built to one package. -/
theorem spelling_does_not_matter_mixed :
    TypeName.Spells "a.A" "\tLa/A" ∧ qualifiedName "\tLa/A" = "a.A" ∧
      dottedBundle.Alike mixedBundle ∧
      ∃ built, Package.ofBundle dottedBundle = .ok built ∧
        Package.ofBundle mixedBundle = .ok built := by
  obtain ⟨built, success, -⟩ :=
    Package.ofAnalyses_complete dottedBundle.index.resolver [dottedAnalysis]
  have same := spelling_does_not_matter.2 dottedBundle mixedBundle alike_mixedBundle
  exact ⟨spells_tab, spelling_does_not_matter.1 _ _ isDotted_a spells_tab, alike_mixedBundle, built,
    success, same.symm.trans success⟩

end ProgramModel
