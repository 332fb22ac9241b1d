/-
# ProgramModel.Proofs.FirstRecords -- of several classes with one name, the first is recorded

Hierarchies are inserted one after another, each under a resolver of its own.  What comes
of that is said here of the *placements*: the class nodes in the order in which they are
met, each with its hierarchy and its resolver.  Inserting hierarchies is meeting their
placements one by one (`insertHierarchies_eq_meetAll`), and meeting a placement whose name
has a record does nothing.

Two facts about meeting placements carry the rest.  The record of a name is the one that
the package had or else that of the first placement with the name (`kept_meetAll`).  And a
placement is reported exactly when that record is of another artifact (`log_meetAll`).
Together with the count of new names (`count_insertClasses`) they say what a sequence of
insertions leaves, reports and returns (`insertHierarchies_firstWins`).
-/
import Mathlib.Data.Finset.Card
import ProgramModel.Proofs.Classes

namespace ProgramModel

set_option autoImplicit false

/-! ## Classes where they are met -/

/-- A hierarchy that is to be inserted, and the resolver that it is inserted under. -/
structure Insertion where
  resolver : ArtifactResolver
  hierarchy : ClassHierarchy

/-- A class node where it is met: in its hierarchy, under a resolver. -/
structure Placement where
  resolver : ArtifactResolver
  hierarchy : ClassHierarchy
  node : ClassNode

/-- The class nodes of an insertion, as listed. -/
def Insertion.placements (insertion : Insertion) : List Placement :=
  insertion.hierarchy.classes.map fun node => ⟨insertion.resolver, insertion.hierarchy, node⟩

/-- Whether an event says that a class was met under another artifact. -/
def Event.isClash : Event → Bool
  | .classClash .. => true
  | _ => false

namespace Placement

def name (placement : Placement) : String := placement.node.qualifiedName

def artifact (placement : Placement) : Option String :=
  placement.resolver.ofClass placement.node.reference

/-- What the record of the class says without looking at other classes. -/
def outline (placement : Placement) : ClassRecord := placement.resolver.outline placement.node

/-- The first placement with a name. -/
def first? (placements : List Placement) (name : String) : Option Placement :=
  placements.find? fun placement => placement.name == name

/-- The outline of the first placement with a name. -/
def kept? (placements : List Placement) (name : String) : Option ClassRecord :=
  (first? placements name).map outline

/-- What is reported of a placement, given the record that its name has: a clash when there is one
of another artifact. -/
def report (placement : Placement) : Option ClassRecord → List Event
  | some kept =>
      if kept.artifact = placement.artifact then []
      else [.classClash placement.name kept.artifact placement.artifact]
  | none => []

/-- What is reported of placements that are met in their order, computed from them alone. -/
def reports (placements : List Placement) : List Event :=
  placements.flatMap fun placement => placement.report (kept? placements placement.name)

variable {placements : List Placement}

theorem first?_cons (placement : Placement) (rest : List Placement) (name : String) :
    first? (placement :: rest) name =
      if placement.name = name then some placement else first? rest name := by
  unfold first?
  by_cases same : placement.name = name
  · simp [same]
  · simp [same]

theorem kept?_cons (placement : Placement) (rest : List Placement) (name : String) :
    kept? (placement :: rest) name =
      (if placement.name = name then some placement.outline else none).or (kept? rest name) := by
  unfold kept?
  rw [first?_cons]
  split <;> rfl

/-- The outline of a placement does not clash with the placement. -/
theorem report_outline (placement : Placement) : placement.report (some placement.outline) = [] :=
  if_pos rfl

theorem filter_isClash_report (placement : Placement) (kept : Option ClassRecord) :
    (placement.report kept).filter Event.isClash = placement.report kept := by
  cases kept with
  | none => rfl
  | some kept =>
      simp only [report]
      split <;> rfl

theorem mem_names_of_first? {name : String} {placement : Placement}
    (first : first? placements name = some placement) :
    placement ∈ placements ∧ placement.name = name := by
  refine ⟨List.mem_of_find?_eq_some first, ?_⟩
  simpa using List.find?_some first

end Placement

/-! ## Meeting them -/

namespace Package

open Placement

/-- The package after its meeting with a class, and whether the class was new. -/
def meet (package : Package) (placement : Placement) : Logged (Package × Bool) :=
  package.insertClass placement.resolver placement.hierarchy placement.node

/-- The package after its meetings with classes, one after another. -/
def meetAll : List Placement → Package → Logged Package
  | [], package => pure package
  | placement :: rest, package => do
      let (package, _) ← package.meet placement
      package.meetAll rest

/-- The package after hierarchies are inserted one after another, with the counts returned. -/
def insertHierarchies : List Insertion → Package → Logged (Package × List Nat)
  | [], package => pure (package, [])
  | insertion :: rest, package => do
      let (package, count) ← package.insertHierarchy insertion.resolver insertion.hierarchy
      let (package, counts) ← package.insertHierarchies rest
      pure (package, count :: counts)

/-- The record of a name without its expected calls. -/
def outline? (package : Package) (name : String) : Option ClassRecord :=
  (package.classRecord? name).map ClassRecord.outline

/-- Whether a name has no record. -/
def lacks (package : Package) (name : String) : Bool := (package.classRecord? name).isNone

variable (package : Package) (placement : Placement)

theorem outline?_isNone (name : String) : (package.outline? name).isNone = package.lacks name := by
  unfold outline? lacks
  cases package.classRecord? name <;> rfl

/-- **All that a meeting reports.** -/
theorem log_meet : (package.meet placement).log =
    placement.report (package.outline? placement.name) := by
  unfold meet insertClass outline? name
  cases package.classRecord? placement.node.qualifiedName <;> rfl

theorem meet_extends : (package.meet placement).value.1.Extends package :=
  insertClass_extends placement.resolver placement.hierarchy package placement.node

/-- A class whose name has no record gets its own, with its expected calls. -/
theorem meet_records (absent : package.classRecord? placement.name = none) :
    (package.meet placement).value.1.Records placement.resolver placement.hierarchy
      placement.node :=
  insertClass_records placement.resolver placement.hierarchy absent

theorem classRecord?_meet_of_ne {name : String} (differs : placement.name ≠ name) :
    (package.meet placement).value.1.classRecord? name = package.classRecord? name :=
  insertClass_other placement.resolver placement.hierarchy package placement.node differs.symm

/-- **A meeting leaves the record that a name has, and gives one to the name of the class.** -/
theorem outline?_meet (name : String) :
    (package.meet placement).value.1.outline? name =
      (package.outline? name).or
        (if placement.name = name then some placement.outline else none) := by
  unfold outline?
  by_cases own : placement.name = name
  · subst own
    cases known : package.classRecord? placement.name with
    | some kept =>
        have still := (package.meet_extends placement).classes placement.name kept known
        rw [still]
        rfl
    | none =>
        obtain ⟨record, there, outline, -⟩ := package.meet_records placement known
        have recorded : (package.meet placement).value.1.classRecord? placement.name =
            some record := there
        rw [recorded, if_pos rfl]
        exact congrArg some outline
  · rw [if_neg own, Option.or_none, package.classRecord?_meet_of_ne placement own]

theorem new_meet : (package.meet placement).value.2 = package.lacks placement.name := by
  unfold meet lacks name
  rcases insertClass_cases placement.resolver placement.hierarchy package placement.node with
    ⟨kept, there, same⟩ | ⟨absent, new⟩
  · rw [same, there]
    rfl
  · rw [new, absent]
    rfl

theorem lacks_meet (name : String) :
    (package.meet placement).value.1.lacks name =
      (package.lacks name && !(placement.name == name)) := by
  rw [← outline?_isNone, ← outline?_isNone, outline?_meet]
  by_cases own : placement.name = name
  · simp [own]
  · simp [own]

/-! ## Meeting one after another -/

theorem value_meetAll_cons (rest : List Placement) :
    (package.meetAll (placement :: rest)).value =
      ((package.meet placement).value.1.meetAll rest).value := rfl

theorem log_meetAll_cons (rest : List Placement) :
    (package.meetAll (placement :: rest)).log =
      (package.meet placement).log ++ ((package.meet placement).value.1.meetAll rest).log := rfl

theorem meetAll_append (before after : List Placement) :
    package.meetAll (before ++ after) = package.meetAll before >>= meetAll after := by
  induction before generalizing package with
  | nil => simp [meetAll]
  | cons placement rest ih => simp only [List.cons_append, meetAll, ih, bind_assoc]

/-- **A name keeps the record that it has; otherwise the first placement with the name is
recorded.** -/
theorem kept_meetAll (placements : List Placement) (name : String) :
    (package.meetAll placements).value.outline? name =
      (package.outline? name).or (kept? placements name) := by
  induction placements generalizing package with
  | nil => exact (Option.or_none).symm
  | cons placement rest ih =>
      rw [value_meetAll_cons, ih, outline?_meet, kept?_cons, Option.or_assoc]

/-- **A placement is reported when the record that its name keeps is of another artifact.** -/
theorem log_meetAll (placements : List Placement) :
    (package.meetAll placements).log = placements.flatMap fun placement =>
      placement.report ((package.outline? placement.name).or
        (kept? placements placement.name)) := by
  induction placements generalizing package with
  | nil => rfl
  | cons placement rest ih =>
      rw [log_meetAll_cons, List.flatMap_cons, log_meet, ih]
      congr 1
      · -- The placement is the first one of its name, and does not clash with itself.
        rw [kept?_cons, if_pos rfl]
        cases package.outline? placement.name with
        | none => exact (report_outline placement).symm
        | some kept => rfl
      · -- What the others find is what they would have found before, or this placement.
        simp only [outline?_meet, kept?_cons, Option.or_assoc]

theorem meetAll_extends (placements : List Placement) :
    (package.meetAll placements).value.Extends package := by
  induction placements generalizing package with
  | nil => exact Extends.refl package
  | cons placement rest ih =>
      rw [value_meetAll_cons]
      exact (ih _).trans (package.meet_extends placement)

variable {package placement} in
/-- The first placement with a name that has no record is recorded, with its expected calls. -/
theorem records_meetAll {placements : List Placement}
    (absent : package.classRecord? placement.name = none)
    (first : first? placements placement.name = some placement) :
    (package.meetAll placements).value.Records placement.resolver placement.hierarchy
      placement.node := by
  induction placements generalizing package with
  | nil => cases first
  | cons head rest ih =>
      rw [value_meetAll_cons]
      rw [first?_cons] at first
      by_cases same : head.name = placement.name
      · rw [if_pos same] at first
        obtain rfl := Option.some.inj first
        exact (package.meet_records head absent).of_extends (meetAll_extends _ rest)
      · rw [if_neg same] at first
        have still := package.classRecord?_meet_of_ne head same
        exact ih (still.trans absent) first

/-- Nothing but clashes is reported. -/
theorem filter_isClash_meetAll (placements : List Placement) :
    (package.meetAll placements).log.filter Event.isClash = (package.meetAll placements).log := by
  rw [log_meetAll, List.filter_flatMap]
  simp only [filter_isClash_report]

/-! ## Hierarchies -/

variable (insertion : Insertion)

theorem insertClasses_eq_meetAll (nodes : List ClassNode) :
    let inserted := package.insertClasses insertion.resolver insertion.hierarchy nodes
    let met := package.meetAll
      (nodes.map fun node => ⟨insertion.resolver, insertion.hierarchy, node⟩)
    inserted.value.1 = met.value ∧ inserted.log = met.log := by
  induction nodes generalizing package with
  | nil => exact ⟨rfl, rfl⟩
  | cons node rest ih =>
      obtain ⟨values, logs⟩ :=
        ih (package.insertClass insertion.resolver insertion.hierarchy node).value.1
      refine ⟨values, ?_⟩
      show _ ++ (_ ++ []) = _
      rw [List.append_nil, logs]
      rfl

/-- Inserting a hierarchy is meeting its classes, but for the event that says that it is done. -/
theorem insertHierarchy_eq_meetAll :
    let inserted := package.insertHierarchy insertion.resolver insertion.hierarchy
    let met := package.meetAll insertion.placements
    inserted.value.1 = met.value ∧ inserted.log.filter Event.isClash = met.log := by
  obtain ⟨values, logs⟩ := package.insertClasses_eq_meetAll insertion insertion.hierarchy.classes
  refine ⟨values, ?_⟩
  show List.filter Event.isClash (_ ++ ([_] ++ [])) = _
  rw [List.filter_append, logs]
  exact (List.append_nil _).trans (package.filter_isClash_meetAll insertion.placements)

/-- **Inserting hierarchies is meeting the placements of all of them.** -/
theorem insertHierarchies_eq_meetAll (insertions : List Insertion) :
    let inserted := package.insertHierarchies insertions
    let met := package.meetAll (insertions.flatMap Insertion.placements)
    inserted.value.1 = met.value ∧ inserted.log.filter Event.isClash = met.log := by
  induction insertions generalizing package with
  | nil => exact ⟨rfl, rfl⟩
  | cons insertion rest ih =>
      obtain ⟨value, log⟩ := package.insertHierarchy_eq_meetAll insertion
      obtain ⟨values, logs⟩ :=
        ih (package.insertHierarchy insertion.resolver insertion.hierarchy).value.1
      rw [value] at values logs
      rw [List.flatMap_cons, meetAll_append]
      refine ⟨?_, ?_⟩
      · show ((package.insertHierarchy _ _).value.1.insertHierarchies rest).value.1 = _
        rw [value, values]
        rfl
      · show List.filter Event.isClash ((package.insertHierarchy _ _).log ++
          (((package.insertHierarchy _ _).value.1.insertHierarchies rest).log ++ [])) = _
        rw [List.append_nil, List.filter_append, log, value, logs]
        rfl

/-! ## Counts -/

/-- The names among some that have no record, each of them once. -/
def newNames (names : List String) : Finset String :=
  names.toFinset.filter fun name => package.lacks name = true

theorem mem_newNames {names : List String} {name : String} :
    name ∈ package.newNames names ↔ name ∈ names ∧ package.lacks name = true := by
  simp [newNames]

/-- After a meeting the name of the class is not new, and every other one is if it was. -/
theorem newNames_cons (rest : List String) :
    (package.newNames (placement.name :: rest)).card =
      (package.lacks placement.name).toNat +
        ((package.meet placement).value.1.newNames rest).card := by
  have later (name : String) : name ∈ (package.meet placement).value.1.newNames rest ↔
      name ∈ rest ∧ package.lacks name = true ∧ placement.name ≠ name := by
    rw [mem_newNames, lacks_meet]
    simp
  cases new : package.lacks placement.name with
  | true =>
      have absent : placement.name ∉ (package.meet placement).value.1.newNames rest := by
        rw [later]
        simp
      have names : package.newNames (placement.name :: rest) =
          insert placement.name ((package.meet placement).value.1.newNames rest) := by
        ext name
        rw [Finset.mem_insert, later, mem_newNames, List.mem_cons]
        by_cases same : name = placement.name
        · simp [same, new]
        · simp [same, Ne.symm same]
      rw [names, Finset.card_insert_of_notMem absent, Bool.toNat_true, Nat.add_comm]
  | false =>
      have names : package.newNames (placement.name :: rest) =
          (package.meet placement).value.1.newNames rest := by
        ext name
        rw [later, mem_newNames, List.mem_cons]
        by_cases same : name = placement.name
        · simp [same, new]
        · simp [same, Ne.symm same]
      rw [names, Bool.toNat_false, Nat.zero_add]

/-- **A hierarchy counts the names that it brings.** -/
theorem count_insertClasses (nodes : List ClassNode) :
    (package.insertClasses insertion.resolver insertion.hierarchy nodes).value.2 =
      (package.newNames (nodes.map ClassNode.qualifiedName)).card := by
  induction nodes generalizing package with
  | nil => rfl
  | cons node rest ih =>
      let placement : Placement := ⟨insertion.resolver, insertion.hierarchy, node⟩
      have first := package.new_meet placement
      have names := package.newNames_cons placement (rest.map ClassNode.qualifiedName)
      rw [value_insertClasses_cons, List.map_cons]
      show (package.meet placement).value.2.toNat + _ = (package.newNames (placement.name :: _)).card
      rw [names, first, ih]
      rfl

theorem counts_insertHierarchies (before after : List Insertion) :
    (package.insertHierarchies (before ++ insertion :: after)).value.2[before.length]? =
      some ((package.insertHierarchies before).value.1.newNames insertion.hierarchy.names).card := by
  induction before generalizing package with
  | nil =>
      have count := package.count_insertClasses insertion insertion.hierarchy.classes
      exact congrArg some count
  | cons first rest ih => exact ih _

/-- The records are as many as the names that have one. -/
theorem classCount_eq {names : List String}
    (recorded : ∀ name, package.lacks name = false ↔ name ∈ names) :
    package.classes.size = names.toFinset.card := by
  have members : package.classes.keys.toFinset = names.toFinset := by
    ext name
    rw [List.mem_toFinset, List.mem_toFinset, ← recorded, SortedMap.mem_keys_iff]
    unfold lacks classRecord?
    cases package.classes.get? name <;> simp
  calc package.classes.size
      = package.classes.keys.length := by simp [SortedMap.size, SortedMap.keys]
    _ = package.classes.keys.toFinset.card :=
        (List.toFinset_card_of_nodup package.classes.nodup_keys).symm
    _ = names.toFinset.card := by rw [members]

end Package

/-- **The first writer wins, and later ones are reported exactly.**  Hierarchies are inserted one
after another into a package that has no records yet, whatever its registry knows.  Then a name has
a record exactly when a class carries it, and it is that of the first class with the name, under the
resolver that this class was met with; so there are as many records as names.  Of the others nothing
is left but a report when they are of another artifact than the record, and an insertion returns how
many names it has brought. -/
theorem insertHierarchies_firstWins (registry : MethodRegistry) (insertions : List Insertion) :
    let start : Package := { methods := registry }
    let run := start.insertHierarchies insertions
    let placements := insertions.flatMap Insertion.placements
    (∀ name, (run.value.1.classRecord? name).map ClassRecord.outline =
      (Placement.first? placements name).map Placement.outline) ∧
    run.value.1.classes.size = (placements.map Placement.name).toFinset.card ∧
    run.log.filter Event.isClash = Placement.reports placements ∧
    (∀ before insertion after, insertions = before ++ insertion :: after →
      run.value.2[before.length]? =
        some ((start.insertHierarchies before).value.1.newNames insertion.hierarchy.names).card) ∧
    (∀ (package : Package) (placement : Placement) (kept : ClassRecord),
      package.classRecord? placement.name = some kept →
      (package.meet placement).value = (package, false) ∧
      (package.meet placement).log =
        if kept.artifact = placement.artifact then []
        else [.classClash placement.name kept.artifact placement.artifact]) := by
  intro start run placements
  obtain ⟨value, log⟩ := start.insertHierarchies_eq_meetAll insertions
  have outlines (name : String) :
      run.value.1.outline? name = Placement.kept? placements name := by
    show (start.insertHierarchies insertions).value.1.outline? name = _
    rw [value, Package.kept_meetAll]
    rfl
  refine ⟨outlines, Package.classCount_eq _ fun name => ?_, ?_, ?_, ?_⟩
  · rw [← Package.outline?_isNone, outlines]
    unfold Placement.kept? Placement.first?
    simp
  · show (start.insertHierarchies insertions).log.filter Event.isClash = _
    rw [log, Package.log_meetAll]
    rfl
  · rintro before insertion after rfl
    exact start.counts_insertHierarchies insertion before after
  · intro package placement kept there
    have outline : package.outline? placement.name = some kept.outline :=
      congrArg (Option.map ClassRecord.outline) there
    have log := package.log_meet placement
    rw [outline] at log
    refine ⟨?_, log⟩
    obtain ⟨_, -, same⟩ | ⟨absent, -⟩ := Package.insertClass_cases placement.resolver
      placement.hierarchy package placement.node
    · exact same
    · exact absurd (there.symm.trans absent) (Option.some_ne_none kept)

end ProgramModel
