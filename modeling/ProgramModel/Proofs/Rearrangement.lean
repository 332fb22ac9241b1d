/-
# ProgramModel.Proofs.Rearrangement -- the order of the inputs does not show

Inputs are *rearranged* when they come in another order, their classes come in another
order, or their call edges come in another order or more often.  The build of rearranged
inputs hands out other ids and walks supertypes in another order, but the document of a
build is computed without either (`Document.ofInputs`), so it is enough to compare what
that reads.

The artifacts and calls are sets of images of what both lists contain.  Classes are
entered first come, first kept, so their order counts as long as names repeat.  Once all
names are distinct, every class is entered and every look-up has at most one outcome:
then the hierarchies have the same dispatches, and the documents agree altogether
(`ofAnalyses_rearranged`).
-/
import Mathlib.Data.List.Forall2
import Mathlib.Data.List.Nodup
import ProgramModel.Proofs.Builds

namespace ProgramModel

set_option autoImplicit false

/-! ## Look-ups among distinct names -/

section Lookups

/-- Among distinct keys a search finds whatever carries the key. -/
theorem find?_eq_some_of_nodup {α : Type} {key : α → String} {list : List α}
    (distinct : (list.map key).Nodup) {x : α} {name : String} :
    list.find? (fun other => key other == name) = some x ↔ x ∈ list ∧ key x = name := by
  constructor
  · intro found
    exact ⟨List.mem_of_find?_eq_some found, by simpa using List.find?_some found⟩
  · rintro ⟨there, rfl⟩
    cases search : list.find? (fun other => key other == key x) with
    | none => simpa using List.find?_eq_none.mp search x there
    | some other =>
        have same : key other = key x := by simpa using List.find?_some search
        have listed : other ∈ list := List.mem_of_find?_eq_some search
        rw [List.inj_on_of_nodup_map distinct listed there same]

end Lookups

namespace ClassHierarchy

variable {one other : ClassHierarchy}

theorem find?_eq_some_of_distinct (distinct : one.names.Nodup) {name : String}
    {node : ClassNode} :
    one.find? name = some node ↔ node ∈ one.classes ∧ node.qualifiedName = name := by
  have reversed : (one.classes.reverse.map ClassNode.qualifiedName).Nodup := by
    rw [List.map_reverse]
    exact List.nodup_reverse.mpr distinct
  rw [find?, find?_eq_some_of_nodup reversed, List.mem_reverse]

/-- The order of distinct classes does not matter to look-ups. -/
theorem find?_congr (permuted : one.classes.Perm other.classes) (distinct : one.names.Nodup) :
    one.find? = other.find? := by
  have distinct' : other.names.Nodup := (permuted.map ClassNode.qualifiedName).nodup distinct
  funext name
  apply Option.ext
  intro node
  rw [find?_eq_some_of_distinct distinct, find?_eq_some_of_distinct distinct', permuted.mem_iff]

/-- Dispatch depends on a hierarchy through its look-ups alone. -/
theorem dispatches_congr (same : one.find? = other.find?) : one.Dispatches = other.Dispatches := by
  have links : one.Links = other.Links := by
    funext own listed child parent
    rw [← iff_eq_eq, links_iff, links_iff, same]
  have superclasses : one.HasSuperclass = other.HasSuperclass := by
    unfold HasSuperclass
    rw [links]
  have interfaces : one.HasInterface = other.HasInterface := by
    unfold HasInterface
    rw [links, superclasses]
  have supertypes : one.HasSupertype = other.HasSupertype := by
    funext node kind
    cases kind with
    | override => exact congrFun superclasses node
    | implements => exact congrFun interfaces node
  unfold Dispatches
  rw [supertypes]

end ClassHierarchy

theorem ArtifactResolver.classEntry_congr (resolver : ArtifactResolver)
    {one other : ClassHierarchy} (same : one.find? = other.find?) (node : ClassNode) :
    resolver.classEntry one node = resolver.classEntry other node := by
  have expected : SortedSet.ofList ((resolver.expectedEdges one node).map ExpectedEdge.entry) =
      SortedSet.ofList ((resolver.expectedEdges other node).map ExpectedEdge.entry) := by
    apply SortedSet.ext
    intro entry
    simp only [SortedSet.mem_ofList, List.mem_map, mem_expectedEdges_iff,
      ClassHierarchy.dispatches_congr same]
  unfold classEntry
  rw [expected]

/-! ## First come, first kept -/

namespace Document

variable {resolver : ArtifactResolver} {classes : SortedSet ClassEntry} {entry : ClassEntry}

theorem names_insert (name : String) :
    names (classes.insert entry) name = (entry.name == name || names classes name) := by
  rw [Bool.eq_iff_iff, Bool.or_eq_true, names_iff, names_iff, beq_iff_eq]
  simp only [SortedSet.mem_insert]
  constructor
  · rintro ⟨other, rfl | there, named⟩
    · exact .inl named
    · exact .inr ⟨other, there, named⟩
  · rintro (named | ⟨other, there, named⟩)
    · exact ⟨entry, .inl rfl, named⟩
    · exact ⟨other, .inr there, named⟩

/-- The place of the first class with a name that has no entry yet. -/
def FirstNew (classes : SortedSet ClassEntry) (located : List (ClassHierarchy × ClassNode))
    (place : ClassHierarchy × ClassNode) : Prop :=
  names classes place.2.qualifiedName = false ∧
    located.find? (fun other => other.2.qualifiedName == place.2.qualifiedName) = some place

variable {head place : ClassHierarchy × ClassNode} {rest : List (ClassHierarchy × ClassNode)}

theorem firstNew_cons_of_named (named : names classes head.2.qualifiedName = true) :
    FirstNew classes (head :: rest) place ↔ FirstNew classes rest place := by
  refine and_congr_right fun new => ?_
  have apart : (head.2.qualifiedName == place.2.qualifiedName) = false := by
    rw [beq_eq_false_iff_ne]
    intro same
    rw [same, new] at named
    cases named
  rw [List.find?_cons, apart]

theorem firstNew_cons_of_new (resolver : ArtifactResolver)
    (new : names classes head.2.qualifiedName = false) :
    FirstNew classes (head :: rest) place ↔
      place = head ∨ FirstNew (classes.insert (resolver.classEntry head.1 head.2)) rest place := by
  have named : (resolver.classEntry head.1 head.2).name = head.2.qualifiedName := rfl
  simp only [FirstNew, names_insert, named, List.find?_cons]
  cases same : head.2.qualifiedName == place.2.qualifiedName with
  | true =>
      -- The search stops at the head, and the new entry hides the name from the rest.
      simp only [Bool.true_or, Bool.true_eq_false, false_and, or_false, Option.some.injEq]
      constructor
      · exact fun found => found.2.symm
      · rintro rfl
        exact ⟨new, rfl⟩
  | false =>
      have apart : place ≠ head := by
        rintro rfl
        simp at same
      simp only [Bool.false_or, apart, false_or]

/-- **Of several classes with one name, the first is entered.** -/
theorem mem_foldl_addClass {located : List (ClassHierarchy × ClassNode)} :
    entry ∈ located.foldl (addClass resolver) classes ↔ entry ∈ classes ∨
      ∃ place, FirstNew classes located place ∧ resolver.classEntry place.1 place.2 = entry := by
  induction located generalizing classes with
  | nil => simp [FirstNew]
  | cons head rest ih =>
      rw [List.foldl_cons, ih]
      unfold addClass
      cases named : names classes head.2.qualifiedName with
      | true =>
          rw [if_pos rfl]
          simp only [firstNew_cons_of_named named]
      | false =>
          rw [if_neg Bool.false_ne_true, SortedSet.mem_insert, eq_comm (a := entry)]
          simp only [firstNew_cons_of_new resolver named, or_and_right, exists_or, exists_eq_left]
          exact or_assoc.trans or_left_comm

end Document

/-! ## Rearranged inputs -/

/-- The same artifact with the same classes in some order, and with the same call edges in some
order and as often as may be. -/
structure SameContent (one other : CompleteAnalysis) : Prop where
  artifact : one.artifact = other.artifact
  classes : one.hierarchy.classes.Perm other.hierarchy.classes
  edges : ∀ edge, edge ∈ one.edges ↔ edge ∈ other.edges

/-- In some order the inputs have the same contents as the others, one by one. -/
def Rearranged (inputs others : List CompleteAnalysis) : Prop :=
  ∃ permuted, inputs.Perm permuted ∧ List.Forall₂ SameContent permuted others

/-- The names of all classes of the inputs. -/
def classNames (inputs : List CompleteAnalysis) : List String :=
  inputs.flatMap fun input => input.hierarchy.names

namespace Rearranged

variable {inputs others : List CompleteAnalysis}

theorem exists_of_forall₂ {α β : Type} {related : α → β → Prop} {left : List α} {right : List β}
    (pairs : List.Forall₂ related left right) {x : α} (there : x ∈ left) :
    ∃ y ∈ right, related x y := by
  induction pairs with
  | nil => cases there
  | cons head _ ih =>
      rcases List.mem_cons.mp there with rfl | later
      · exact ⟨_, List.mem_cons_self, head⟩
      · obtain ⟨y, listed, same⟩ := ih later
        exact ⟨y, List.mem_cons_of_mem _ listed, same⟩

theorem exists_other (rearranged : Rearranged inputs others) {input : CompleteAnalysis}
    (there : input ∈ inputs) : ∃ other ∈ others, SameContent input other := by
  obtain ⟨permuted, perm, pairs⟩ := rearranged
  exact exists_of_forall₂ pairs (perm.mem_iff.mp there)

theorem exists_input (rearranged : Rearranged inputs others) {other : CompleteAnalysis}
    (there : other ∈ others) : ∃ input ∈ inputs, SameContent input other := by
  obtain ⟨permuted, perm, pairs⟩ := rearranged
  obtain ⟨input, listed, same⟩ := exists_of_forall₂ pairs.flip there
  exact ⟨input, perm.mem_iff.mpr listed, same⟩

/-- What is said of contents alone is said of some input when it is said of some other. -/
theorem exists_iff (rearranged : Rearranged inputs others) {said : CompleteAnalysis → Prop}
    (alike : ∀ one ∈ inputs, ∀ other, SameContent one other → (said one ↔ said other)) :
    (∃ input ∈ inputs, said input) ↔ ∃ other ∈ others, said other := by
  constructor
  · rintro ⟨input, there, holds⟩
    obtain ⟨other, listed, same⟩ := rearranged.exists_other there
    exact ⟨other, listed, (alike input there other same).mp holds⟩
  · rintro ⟨other, there, holds⟩
    obtain ⟨input, listed, same⟩ := rearranged.exists_input there
    exact ⟨input, listed, (alike input listed other same).mpr holds⟩

theorem mem_artifacts (rearranged : Rearranged inputs others) (artifact : ArtifactRecord) :
    artifact ∈ inputs.map CompleteAnalysis.artifact ↔
      artifact ∈ others.map CompleteAnalysis.artifact := by
  rw [List.mem_map, List.mem_map]
  refine rearranged.exists_iff fun one _ other same => ?_
  rw [same.artifact]

theorem mem_edges (rearranged : Rearranged inputs others) (edge : CallEdge) :
    edge ∈ inputs.flatMap CompleteAnalysis.edges ↔
      edge ∈ others.flatMap CompleteAnalysis.edges := by
  rw [List.mem_flatMap, List.mem_flatMap]
  exact rearranged.exists_iff fun one _ other same => same.edges edge

theorem perm_classNames (rearranged : Rearranged inputs others) :
    (classNames inputs).Perm (classNames others) := by
  obtain ⟨permuted, perm, pairs⟩ := rearranged
  refine (perm.flatMap_right _).trans ?_
  clear perm
  induction pairs with
  | nil => exact List.Perm.refl _
  | cons head _ ih =>
      rw [List.flatMap_cons]
      exact (head.classes.map ClassNode.qualifiedName).append ih

end Rearranged

/-! ## Their documents -/

namespace Document

variable (resolver : ArtifactResolver) {inputs others : List CompleteAnalysis}

theorem artifacts_rearranged (rearranged : Rearranged inputs others) :
    (ofInputs resolver inputs).artifacts = (ofInputs resolver others).artifacts := by
  apply SortedSet.ext
  intro artifact
  simp only [ofInputs, SortedSet.mem_ofList]
  exact rearranged.mem_artifacts artifact

/-- Either half of the calls is made of the same edges. -/
theorem callEntries_rearranged (rearranged : Rearranged inputs others) (attributed : Bool) :
    SortedSet.ofList
        (resolver.callEntries attributed (inputs.flatMap CompleteAnalysis.edges)) =
      SortedSet.ofList
        (resolver.callEntries attributed (others.flatMap CompleteAnalysis.edges)) := by
  apply SortedSet.ext
  intro entry
  simp only [ArtifactResolver.callEntries, SortedSet.mem_ofList, List.mem_map, List.mem_filter,
    rearranged.mem_edges]

theorem names_located (inputs : List CompleteAnalysis) :
    (inputs.flatMap CompleteAnalysis.located).map (fun place => place.2.qualifiedName) =
      classNames inputs := by
  rw [List.map_flatMap]
  refine congrArg (inputs.flatMap ·) (funext fun input => ?_)
  rw [CompleteAnalysis.located, List.map_map]
  rfl

/-- When no name repeats, every class is entered. -/
theorem mem_classes_of_distinct (distinct : (classNames inputs).Nodup) {entry : ClassEntry} :
    entry ∈ (ofInputs resolver inputs).classes ↔ ∃ input ∈ inputs,
      ∃ node ∈ input.hierarchy.classes, resolver.classEntry input.hierarchy node = entry := by
  have keys := (names_located inputs).symm ▸ distinct
  simp only [ofInputs, mem_foldl_addClass, FirstNew, find?_eq_some_of_nodup keys]
  constructor
  · rintro (there | ⟨⟨hierarchy, node⟩, ⟨-, there, -⟩, rfl⟩)
    · exact absurd there (SortedSet.not_mem_empty entry)
    · obtain ⟨input, listed, place⟩ := List.mem_flatMap.mp there
      obtain ⟨_, member, same⟩ := List.mem_map.mp place
      cases same
      exact ⟨input, listed, node, member, rfl⟩
  · rintro ⟨input, listed, node, member, rfl⟩
    have place : (input.hierarchy, node) ∈ inputs.flatMap CompleteAnalysis.located :=
      List.mem_flatMap.mpr ⟨input, listed, List.mem_map.mpr ⟨node, member, rfl⟩⟩
    exact .inr ⟨(input.hierarchy, node), ⟨rfl, place, trivial⟩, rfl⟩

/-- Distinct classes have the same entries in either list. -/
theorem classes_rearranged (rearranged : Rearranged inputs others)
    (distinct : (classNames inputs).Nodup) :
    (ofInputs resolver inputs).classes = (ofInputs resolver others).classes := by
  have distinct' : (classNames others).Nodup := rearranged.perm_classNames.nodup distinct
  apply SortedSet.ext
  intro entry
  rw [mem_classes_of_distinct resolver distinct, mem_classes_of_distinct resolver distinct']
  refine rearranged.exists_iff fun one there other same => ?_
  -- Distinct among all classes, names are distinct within each hierarchy.
  have lookups : one.hierarchy.find? = other.hierarchy.find? :=
    ClassHierarchy.find?_congr same.classes ((List.nodup_flatMap.mp distinct).1 one there)
  simp only [same.classes.mem_iff, resolver.classEntry_congr lookups]

end Document

/-- **The order of the inputs does not show.**  Builds of rearranged inputs succeed alike and
agree in their artifacts and in both halves of their calls.  When no two classes have one name,
they agree in the whole document. -/
theorem ofAnalyses_rearranged (resolver : ArtifactResolver) {inputs others : List CompleteAnalysis}
    (rearranged : Rearranged inputs others) :
    ∃ one other,
      Package.ofAnalyses resolver (inputs.map CompleteAnalysis.analysis) = .ok one ∧
      Package.ofAnalyses resolver (others.map CompleteAnalysis.analysis) = .ok other ∧
      one.value.document.artifacts = other.value.document.artifacts ∧
      one.value.document.resolvedCalls = other.value.document.resolvedCalls ∧
      one.value.document.unresolvedCalls = other.value.document.unresolvedCalls ∧
      ((classNames inputs).Nodup → one.value.document = other.value.document) := by
  obtain ⟨one, builds, result⟩ := Package.ofAnalyses_complete resolver inputs
  obtain ⟨other, builds', result'⟩ := Package.ofAnalyses_complete resolver others
  have shown := (Package.shows_assemble resolver inputs).document
  have shown' := (Package.shows_assemble resolver others).document
  have artifacts := Document.artifacts_rearranged resolver rearranged
  have resolved := Document.callEntries_rearranged resolver rearranged true
  have unresolved := Document.callEntries_rearranged resolver rearranged false
  refine ⟨one, other, builds, builds', ?_⟩
  rw [result, result', shown, shown']
  refine ⟨artifacts, resolved, unresolved, fun distinct => ?_⟩
  have classes := Document.classes_rearranged resolver rearranged distinct
  simp only [Document.ofInputs, Document.mk.injEq]
  exact ⟨artifacts, classes, resolved, unresolved⟩

/-- Two inputs that change places, one of them with its classes turned round and its call twice. -/
theorem ofAnalyses_rearranged_turned :
    let resolver := ArtifactResolver.owning "g:a:1"
    let above : ClassNode :=
      { reference := ⟨"a.A", .application⟩, methods := [{ selector := "run()V" }] }
    let below : ClassNode :=
      { above with reference := ⟨"a.B", .application⟩, superclass := some above.reference }
    let call : CallEdge :=
      ⟨above.methodReference "run()V", below.methodReference "run()V", .virtual⟩
    let first : CompleteAnalysis := ⟨⟨"g", "a", "1"⟩, ⟨[above, below]⟩, ⟨[call]⟩⟩
    let turned : CompleteAnalysis := ⟨⟨"g", "a", "1"⟩, ⟨[below, above]⟩, ⟨[call, call]⟩⟩
    let second : CompleteAnalysis := ⟨⟨"g", "b", "1"⟩, {}, {}⟩
    Rearranged [first, second] [second, turned] ∧ (classNames [first, second]).Nodup ∧
      ∃ one other,
        Package.ofAnalyses resolver [first.analysis, second.analysis] = .ok one ∧
        Package.ofAnalyses resolver [second.analysis, turned.analysis] = .ok other ∧
        one.value.document = other.value.document := by
  intro resolver above below call first turned second
  have same : SameContent second second := ⟨rfl, .refl _, fun _ => Iff.rfl⟩
  have turns : SameContent first turned :=
    ⟨rfl, .swap below above [], fun edge => by simp [CompleteAnalysis.edges, first, turned]⟩
  have rearranged : Rearranged [first, second] [second, turned] :=
    ⟨[second, first], .swap second first [], .cons same (.cons turns .nil)⟩
  have distinct : (classNames [first, second]).Nodup := by decide
  obtain ⟨one, other, builds, builds', -, -, -, documents⟩ :=
    ofAnalyses_rearranged resolver rearranged
  exact ⟨rearranged, distinct, one, other, builds, builds', documents distinct⟩

end ProgramModel
