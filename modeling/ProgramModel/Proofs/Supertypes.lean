/-
# ProgramModel.Proofs.Supertypes -- the walk finds the supertypes that the names lead to

What a class's supertypes are is said here without a walk, over the fields of the nodes.
A name *finds* the last node that carries it, and a class *links* to what a name that it
lists finds, unless that name is the name of the class one started from.  Its superclasses
are the nodes that superclass links lead to (`HasSuperclass`).  Its interfaces are the nodes
that interface links lead to from the class or from one of its superclasses, without those
that are superclasses already (`HasInterface`).

The walk keeps one list of visited names for both halves.  Three facts about it carry
the proof: what it returns is linked, it never returns a visited name, and it is
closed -- a name that it lists but does not return was visited before or is unknown.
From these the walk finds exactly the supertypes (`mem_superclasses_iff`,
`mem_interfaces_iff`), for hierarchies with cycles, gaps and repeated names alike.
-/
import Mathlib.Logic.Relation
import ProgramModel.Build.Supertypes

namespace ProgramModel

set_option autoImplicit false

/-- A search by a key finds the first member with the key. -/
theorem find?_key_eq_some_iff {α κ : Type} [DecidableEq κ] {key : α → κ} {list : List α}
    {wanted : κ} {member : α} :
    list.find? (fun other => key other == wanted) = some member ↔
      ∃ before after, list = before ++ member :: after ∧ key member = wanted ∧
        ∀ earlier ∈ before, key earlier ≠ wanted := by
  rw [List.find?_eq_some_iff_append]
  simp only [beq_iff_eq, Bool.not_eq_eq_eq_not, Bool.not_true, beq_eq_false_iff_ne]
  constructor
  · rintro ⟨same, before, after, split, others⟩
    exact ⟨before, after, split, same, others⟩
  · rintro ⟨before, after, split, same, others⟩
    exact ⟨same, before, after, split, others⟩

namespace ClassHierarchy

/-! ## What the supertypes are -/

/-- The node is the last one of the hierarchy that carries the name. -/
def Finds (hierarchy : ClassHierarchy) (name : String) (node : ClassNode) : Prop :=
  ∃ before after, hierarchy.classes = before ++ node :: after ∧ node.qualifiedName = name ∧
    ∀ later ∈ after, later.qualifiedName ≠ name

/-- A look-up finds that node and no other. -/
theorem find?_eq_some_iff {hierarchy : ClassHierarchy} {name : String} {node : ClassNode} :
    hierarchy.find? name = some node ↔ hierarchy.Finds name node := by
  unfold find?
  rw [find?_key_eq_some_iff]
  -- The list is searched from its end, so what was passed is what comes after.
  constructor
  · rintro ⟨passed, rest, listed, named, others⟩
    refine ⟨rest.reverse, passed.reverse, ?_, named, ?_⟩
    · rw [← List.reverse_reverse hierarchy.classes, listed]
      simp
    · intro later there
      exact others later (List.mem_reverse.mp there)
  · rintro ⟨before, after, listed, named, others⟩
    refine ⟨after.reverse, before.reverse, ?_, named, ?_⟩
    · rw [listed]
      simp
    · intro later there
      exact others later (List.mem_reverse.mp there)

/-- A name that the child lists, other than `own`, finds the parent. -/
def Links (hierarchy : ClassHierarchy) (own : String) (listed : ClassNode → List String)
    (child parent : ClassNode) : Prop :=
  ∃ name ∈ listed child, name ≠ own ∧ hierarchy.Finds name parent

theorem links_iff {hierarchy : ClassHierarchy} {own : String} {listed : ClassNode → List String}
    {child parent : ClassNode} :
    hierarchy.Links own listed child parent ↔
      ∃ name ∈ listed child, name ≠ own ∧ hierarchy.find? name = some parent := by
  simp only [Links, find?_eq_some_iff]

section Ways

variable {hierarchy : ClassHierarchy} {own : String} {listed : ClassNode → List String}
  {start parent : ClassNode}
  (way : Relation.TransGen (hierarchy.Links own listed) start parent)
include way

/-- A way along links ends at what its own name finds. -/
theorem find?_of_links : hierarchy.find? parent.qualifiedName = some parent := by
  obtain ⟨_, -, last⟩ := Relation.TransGen.tail'_iff.mp way
  obtain ⟨name, -, -, finds⟩ := links_iff.mp last
  rw [qualifiedName_of_find? finds]
  exact finds

/-- A way along links does not end at the name that it has to avoid. -/
theorem qualifiedName_ne_of_links : parent.qualifiedName ≠ own := by
  obtain ⟨_, -, last⟩ := Relation.TransGen.tail'_iff.mp way
  obtain ⟨name, -, differs, finds⟩ := links_iff.mp last
  rw [qualifiedName_of_find? finds]
  exact differs

end Ways

/-- The name of the superclass, if one is listed, as a list. -/
def superclassNames (node : ClassNode) : List String :=
  (node.superclass.map TypeReference.qualifiedName).toList

/-- The names of the interfaces, as listed. -/
def interfaceNames (node : ClassNode) : List String :=
  node.interfaces.map TypeReference.qualifiedName

theorem mem_superclassNames_iff {node : ClassNode} {name : String} :
    name ∈ superclassNames node ↔ node.superclassName = some name :=
  Option.mem_toList

theorem mem_interfaceNames_iff {node : ClassNode} {name : String} :
    name ∈ interfaceNames node ↔ name ∈ node.interfaceNames := Iff.rfl

/-- The parent is met on the way along superclass names, which ends at a name that is unknown or
the class's own.  Past a name that repeats, the way meets no other node than before. -/
def HasSuperclass (hierarchy : ClassHierarchy) (node parent : ClassNode) : Prop :=
  Relation.TransGen (hierarchy.Links node.qualifiedName superclassNames) node parent

/-- The parent is met along interface names from the class or from a superclass of it, never
passing through the class's own name, and is no superclass itself. -/
def HasInterface (hierarchy : ClassHierarchy) (node parent : ClassNode) : Prop :=
  ¬ hierarchy.HasSuperclass node parent ∧
    ∃ start, (start = node ∨ hierarchy.HasSuperclass node start) ∧
      Relation.TransGen (hierarchy.Links node.qualifiedName interfaceNames) start parent

variable {hierarchy : ClassHierarchy} {visited pending : List String} {own name : String}
  {node parent : ClassNode}

/-! ## The superclasses -/

section Superclasses

@[simp] theorem superclassChain_none :
    hierarchy.superclassChain visited none = ([], visited) := by
  rw [superclassChain]

theorem superclassChain_visited (old : name ∈ visited) :
    hierarchy.superclassChain visited (some name) = ([], visited) := by
  rw [superclassChain, dif_pos (by simpa using old)]

theorem superclassChain_unknown (fresh : name ∉ visited)
    (unknown : hierarchy.find? name = none) :
    hierarchy.superclassChain visited (some name) = ([], name :: visited) := by
  rw [superclassChain, dif_neg (by simpa using fresh)]
  split
  · rfl
  · rename_i known
    rw [unknown] at known
    cases known

theorem superclassChain_known (fresh : name ∉ visited)
    (known : hierarchy.find? name = some node) :
    hierarchy.superclassChain visited (some name) =
      (node :: (hierarchy.superclassChain (name :: visited) node.superclassName).1,
        (hierarchy.superclassChain (name :: visited) node.superclassName).2) := by
  rw [superclassChain, dif_neg (by simpa using fresh)]
  split
  · rename_i unknown
    rw [known] at unknown
    cases unknown
  · rename_i other same
    rw [known] at same
    cases same
    rfl

/-- A way to reason about the walk along superclasses: it stops for want of a name, at a visited
name or at an unknown one, or goes on from the node that the name finds. -/
theorem superclassChain_induction (hierarchy : ClassHierarchy)
    {motive : List String → Option String → Prop}
    (ends : ∀ visited, motive visited none)
    (repeats : ∀ visited name, name ∈ visited → motive visited (some name))
    (misses : ∀ visited name, name ∉ visited → hierarchy.find? name = none →
      motive visited (some name))
    (goesOn : ∀ visited name node, name ∉ visited → hierarchy.find? name = some node →
      motive (name :: visited) node.superclassName → motive visited (some name))
    (visited : List String) (start : Option String) : motive visited start := by
  induction visited, start using superclassChain.induct hierarchy with
  | case1 visited => exact ends visited
  | case2 visited name old => exact repeats visited name (by simpa using old)
  | case3 visited name fresh unknown => exact misses visited name (by simpa using fresh) unknown
  | case4 visited name fresh node known _ _ _ ih =>
      exact goesOn visited name node (by simpa using fresh) known ih

theorem visited_subset_chain (hierarchy : ClassHierarchy) (visited : List String)
    (start : Option String) :
    visited ⊆ (hierarchy.superclassChain visited start).2 := by
  induction visited, start using superclassChain_induction hierarchy with
  | ends visited => simp
  | repeats visited name old => simp [superclassChain_visited old]
  | misses visited name fresh unknown => simp [superclassChain_unknown fresh unknown]
  | goesOn visited name node fresh known ih =>
      rw [superclassChain_known fresh known]
      exact fun other there => ih (List.mem_cons_of_mem _ there)

/-- What the walk returns it has just visited, and it is what the name of it finds. -/
theorem mem_superclassChain {visited : List String} {start : Option String}
    (found : parent ∈ (hierarchy.superclassChain visited start).1) :
    hierarchy.find? parent.qualifiedName = some parent ∧ parent.qualifiedName ∉ visited ∧
      parent.qualifiedName ∈ (hierarchy.superclassChain visited start).2 := by
  induction visited, start using superclassChain_induction hierarchy with
  | ends visited => simp at found
  | repeats visited name old => simp [superclassChain_visited old] at found
  | misses visited name fresh unknown => simp [superclassChain_unknown fresh unknown] at found
  | goesOn visited name node fresh known ih =>
      rw [superclassChain_known fresh known] at found ⊢
      rcases List.mem_cons.mp found with rfl | later
      · have named := qualifiedName_of_find? known
        rw [named]
        exact ⟨known, fresh, visited_subset_chain _ _ _ List.mem_cons_self⟩
      · obtain ⟨own, new, there⟩ := ih later
        exact ⟨own, fun old => new (List.mem_cons_of_mem _ old), there⟩

/-- A name that the walk has visited was visited before, is unknown, or finds what it returns. -/
theorem visited_of_superclassChain {visited : List String} {start : Option String}
    (there : name ∈ (hierarchy.superclassChain visited start).2)
    (finds : hierarchy.find? name = some node) :
    name ∈ visited ∨ node ∈ (hierarchy.superclassChain visited start).1 := by
  induction visited, start using superclassChain_induction hierarchy with
  | ends visited => exact .inl (by simpa using there)
  | repeats visited _ old => exact .inl (by simpa [superclassChain_visited old] using there)
  | misses visited other fresh unknown =>
      rw [superclassChain_unknown fresh unknown] at there
      rcases List.mem_cons.mp there with rfl | old
      · rw [unknown] at finds; cases finds
      · exact .inl old
  | goesOn visited other first fresh known ih =>
      rw [superclassChain_known fresh known] at there ⊢
      rcases ih there with old | later
      · rcases List.mem_cons.mp old with rfl | old
        · rw [known] at finds
          cases finds
          exact .inr List.mem_cons_self
        · exact .inl old
      · exact .inr (List.mem_cons_of_mem _ later)

/-- The walk visits the name that it starts from, and of all that it returns the next name. -/
theorem next_visited {visited : List String} {start : Option String} :
    (∀ name, start = some name → name ∈ (hierarchy.superclassChain visited start).2) ∧
      ∀ child ∈ (hierarchy.superclassChain visited start).1, ∀ name,
        child.superclassName = some name → name ∈ (hierarchy.superclassChain visited start).2 := by
  induction visited, start using superclassChain_induction hierarchy with
  | ends visited => simp
  | repeats visited other old => simp [superclassChain_visited old, old]
  | misses visited other fresh unknown => simp [superclassChain_unknown fresh unknown]
  | goesOn visited other first fresh known ih =>
      obtain ⟨fromFirst, fromLater⟩ := ih
      rw [superclassChain_known fresh known]
      refine ⟨fun name same => ?_, fun child there name next => ?_⟩
      · cases same
        exact visited_subset_chain _ _ _ List.mem_cons_self
      · rcases List.mem_cons.mp there with rfl | later
        · exact fromFirst name next
        · exact fromLater child later name next

/-- A step of the walk along superclass names is a link. -/
theorem links_superclass {visited : List String} {child : ClassNode} (avoids : own ∈ visited)
    (named : child.superclassName = some name) (fresh : name ∉ visited)
    (known : hierarchy.find? name = some parent) :
    hierarchy.Links own superclassNames child parent :=
  links_iff.mpr
    ⟨name, mem_superclassNames_iff.mpr named, fun same => fresh (same ▸ avoids), known⟩

/-- Whatever the walk returns, superclass links lead there from any class that names the start. -/
theorem linked_of_mem_superclassChain {visited : List String} {start : Option String}
    {child : ClassNode} (avoids : own ∈ visited) (named : child.superclassName = start)
    (found : parent ∈ (hierarchy.superclassChain visited start).1) :
    Relation.TransGen (hierarchy.Links own superclassNames) child parent := by
  induction visited, start using superclassChain_induction hierarchy
    generalizing child with
  | ends visited => simp at found
  | repeats visited name old => simp [superclassChain_visited old] at found
  | misses visited name fresh unknown => simp [superclassChain_unknown fresh unknown] at found
  | goesOn visited name node fresh known ih =>
      have link := links_superclass avoids named fresh known
      rw [superclassChain_known fresh known] at found
      rcases List.mem_cons.mp found with rfl | later
      · exact .single link
      · exact .head link (ih (List.mem_cons_of_mem _ avoids) rfl later)

/-- **The walk along superclass names finds exactly the superclasses.** -/
theorem mem_superclassChain_iff :
    parent ∈ (hierarchy.superclassChain [node.qualifiedName] node.superclassName).1 ↔
      hierarchy.HasSuperclass node parent := by
  constructor
  · exact linked_of_mem_superclassChain List.mem_cons_self rfl
  · intro above
    have step : ∀ {child parent : ClassNode},
        (child = node ∨
          child ∈ (hierarchy.superclassChain [node.qualifiedName] node.superclassName).1) →
        hierarchy.Links node.qualifiedName superclassNames child parent →
        parent ∈ (hierarchy.superclassChain [node.qualifiedName] node.superclassName).1 := by
      intro child parent place link
      obtain ⟨name, listed, differs, known⟩ := links_iff.mp link
      have next : child.superclassName = some name := mem_superclassNames_iff.mp listed
      have there : name ∈
          (hierarchy.superclassChain [node.qualifiedName] node.superclassName).2 := by
        rcases place with rfl | inside
        · exact next_visited.1 name next
        · exact next_visited.2 child inside name next
      rcases visited_of_superclassChain there known with old | returned
      · exact absurd (List.mem_singleton.mp old) differs
      · exact returned
    induction above with
    | single link => exact step (.inl rfl) link
    | tail _ link ih => exact step (.inr ih) link

end Superclasses

/-! ## The interfaces -/

section Interfaces

@[simp] theorem interfaceClosure_nil : hierarchy.interfaceClosure visited [] = [] := by
  rw [interfaceClosure]

theorem interfaceClosure_visited (old : name ∈ visited) :
    hierarchy.interfaceClosure visited (name :: pending) =
      hierarchy.interfaceClosure visited pending := by
  rw [interfaceClosure, dif_pos (by simpa using old)]

theorem interfaceClosure_unknown (fresh : name ∉ visited)
    (unknown : hierarchy.find? name = none) :
    hierarchy.interfaceClosure visited (name :: pending) =
      hierarchy.interfaceClosure (name :: visited) pending := by
  rw [interfaceClosure, dif_neg (by simpa using fresh)]
  split
  · rfl
  · rename_i known
    rw [unknown] at known
    cases known

theorem interfaceClosure_known (fresh : name ∉ visited)
    (known : hierarchy.find? name = some node) :
    hierarchy.interfaceClosure visited (name :: pending) =
      node :: hierarchy.interfaceClosure (name :: visited)
        (node.interfaceNames.reverse ++ pending) := by
  rw [interfaceClosure, dif_neg (by simpa using fresh)]
  split
  · rename_i unknown
    rw [known] at unknown
    cases unknown
  · rename_i other same
    rw [known] at same
    cases same
    rfl

/-- A way to reason about the walk over interfaces: the name on top of the stack is dropped when it
is visited or unknown, and replaced by the names of the node that it finds otherwise. -/
theorem interfaceClosure_induction (hierarchy : ClassHierarchy)
    {motive : List String → List String → Prop}
    (ends : ∀ visited, motive visited [])
    (repeats : ∀ visited name pending, name ∈ visited → motive visited pending →
      motive visited (name :: pending))
    (misses : ∀ visited name pending, name ∉ visited → hierarchy.find? name = none →
      motive (name :: visited) pending → motive visited (name :: pending))
    (goesOn : ∀ visited name pending node, name ∉ visited → hierarchy.find? name = some node →
      motive (name :: visited) (node.interfaceNames.reverse ++ pending) →
      motive visited (name :: pending))
    (visited pending : List String) : motive visited pending := by
  induction visited, pending using interfaceClosure.induct hierarchy with
  | case1 visited => exact ends visited
  | case2 visited name pending old ih => exact repeats visited name pending (by simpa using old) ih
  | case3 visited name pending fresh unknown ih =>
      exact misses visited name pending (by simpa using fresh) unknown ih
  | case4 visited name pending fresh node known ih =>
      exact goesOn visited name pending node (by simpa using fresh) known ih

/-- What the walk returns was not visited before, and it is what the name of it finds. -/
theorem mem_interfaceClosure (found : parent ∈ hierarchy.interfaceClosure visited pending) :
    hierarchy.find? parent.qualifiedName = some parent ∧ parent.qualifiedName ∉ visited := by
  induction visited, pending using interfaceClosure_induction hierarchy with
  | ends visited => simp at found
  | repeats visited name pending old ih =>
      rw [interfaceClosure_visited old] at found
      exact ih found
  | misses visited name pending fresh unknown ih =>
      rw [interfaceClosure_unknown fresh unknown] at found
      obtain ⟨own, new⟩ := ih found
      exact ⟨own, fun old => new (List.mem_cons_of_mem _ old)⟩
  | goesOn visited name pending node fresh known ih =>
      rw [interfaceClosure_known fresh known] at found
      rcases List.mem_cons.mp found with rfl | later
      · have named := qualifiedName_of_find? known
        rw [named]
        exact ⟨known, fresh⟩
      · obtain ⟨own, new⟩ := ih later
        exact ⟨own, fun old => new (List.mem_cons_of_mem _ old)⟩

/-- The walk is closed: it returns what a name on the stack finds, and what the names of anything
that it returns find, unless the name was visited before. -/
theorem interfaceClosure_closed :
    (∀ name ∈ pending, ∀ parent, hierarchy.find? name = some parent →
      name ∈ visited ∨ parent ∈ hierarchy.interfaceClosure visited pending) ∧
    ∀ child ∈ hierarchy.interfaceClosure visited pending, ∀ name ∈ child.interfaceNames,
      ∀ parent, hierarchy.find? name = some parent →
        name ∈ visited ∨ parent ∈ hierarchy.interfaceClosure visited pending := by
  induction visited, pending using interfaceClosure_induction hierarchy with
  | ends visited => simp
  | repeats visited first pending old ih =>
      rw [interfaceClosure_visited old]
      refine ⟨fun name there parent finds => ?_, ih.2⟩
      rcases List.mem_cons.mp there with rfl | later
      · exact .inl old
      · exact ih.1 name later parent finds
  | misses visited first pending fresh unknown ih =>
      -- An unknown name is visited for nothing: no name that finds a node is equal to it.
      have drop : ∀ {name parent}, hierarchy.find? name = some parent →
          name ∈ first :: visited → name ∈ visited := by
        intro name parent finds there
        rcases List.mem_cons.mp there with rfl | old
        · rw [unknown] at finds; cases finds
        · exact old
      rw [interfaceClosure_unknown fresh unknown]
      refine ⟨fun name there parent finds => ?_, fun child inside name listed parent finds =>
        (ih.2 child inside name listed parent finds).imp_left (drop finds)⟩
      rcases List.mem_cons.mp there with rfl | later
      · rw [unknown] at finds; cases finds
      · exact (ih.1 name later parent finds).imp_left (drop finds)
  | goesOn visited first pending node fresh known ih =>
      -- The name that was just visited finds the node that was just returned.
      have lift : ∀ {name parent}, hierarchy.find? name = some parent →
          (name ∈ first :: visited ∨ parent ∈ hierarchy.interfaceClosure (first :: visited)
            (node.interfaceNames.reverse ++ pending)) →
          name ∈ visited ∨ parent ∈ node :: hierarchy.interfaceClosure (first :: visited)
            (node.interfaceNames.reverse ++ pending) := by
        intro name parent finds place
        rcases place with there | returned
        · rcases List.mem_cons.mp there with rfl | old
          · rw [known] at finds
            cases finds
            exact .inr List.mem_cons_self
          · exact .inl old
        · exact .inr (List.mem_cons_of_mem _ returned)
      rw [interfaceClosure_known fresh known]
      refine ⟨fun name there parent finds => ?_, fun child inside name listed parent finds => ?_⟩
      · rcases List.mem_cons.mp there with rfl | later
        · exact lift finds (.inl List.mem_cons_self)
        · exact lift finds (ih.1 name (by simp [later]) parent finds)
      · rcases List.mem_cons.mp inside with rfl | later
        · exact lift finds (ih.1 name (by simp [listed]) parent finds)
        · exact lift finds (ih.2 child later name listed parent finds)

/-- Whatever the walk returns, interface links lead there from a name on the stack. -/
theorem linked_of_mem_interfaceClosure (avoids : own ∈ visited)
    (found : parent ∈ hierarchy.interfaceClosure visited pending) :
    ∃ name ∈ pending, name ≠ own ∧ ∃ first, hierarchy.find? name = some first ∧
      Relation.ReflTransGen (hierarchy.Links own interfaceNames) first parent := by
  induction visited, pending using interfaceClosure_induction hierarchy with
  | ends visited => simp at found
  | repeats visited name pending old ih =>
      rw [interfaceClosure_visited old] at found
      obtain ⟨other, there, way⟩ := ih avoids found
      exact ⟨other, List.mem_cons_of_mem _ there, way⟩
  | misses visited name pending fresh unknown ih =>
      rw [interfaceClosure_unknown fresh unknown] at found
      obtain ⟨other, there, way⟩ := ih (List.mem_cons_of_mem _ avoids) found
      exact ⟨other, List.mem_cons_of_mem _ there, way⟩
  | goesOn visited name pending node fresh known ih =>
      have differs : name ≠ own := fun same => fresh (same ▸ avoids)
      rw [interfaceClosure_known fresh known] at found
      rcases List.mem_cons.mp found with rfl | later
      · exact ⟨name, List.mem_cons_self, differs, parent, known, .refl⟩
      · obtain ⟨other, there, apart, first, finds, way⟩ := ih (List.mem_cons_of_mem _ avoids) later
        rcases List.mem_append.mp there with listed | below
        · have names : other ∈ interfaceNames node :=
            mem_interfaceNames_iff.mpr (List.mem_reverse.mp listed)
          have link : hierarchy.Links own interfaceNames node first :=
            links_iff.mpr ⟨other, names, apart, finds⟩
          exact ⟨name, List.mem_cons_self, differs, node, known, .head link way⟩
        · exact ⟨other, List.mem_cons_of_mem _ below, apart, first, finds, way⟩

end Interfaces

/-! ## Both halves -/

theorem mem_superclasses_iff :
    parent ∈ (hierarchy.supertypes node).superclasses ↔ hierarchy.HasSuperclass node parent :=
  mem_superclassChain_iff

/-- The names on the stack are those that the class and its superclasses list. -/
theorem mem_stack_iff :
    name ∈ (node.interfaceNames ++
        (hierarchy.supertypes node).superclasses.flatMap ClassNode.interfaceNames).reverse ↔
      ∃ start, (start = node ∨ hierarchy.HasSuperclass node start) ∧
        name ∈ start.interfaceNames := by
  rw [List.mem_reverse, List.mem_append, List.mem_flatMap]
  constructor
  · rintro (listed | ⟨start, above, listed⟩)
    · exact ⟨node, .inl rfl, listed⟩
    · exact ⟨start, .inr (mem_superclasses_iff.mp above), listed⟩
  · rintro ⟨start, rfl | above, listed⟩
    · exact .inl listed
    · exact .inr ⟨start, mem_superclasses_iff.mpr above, listed⟩

/-- An interface link from the class or from any supertype that the walks return leads to one that
they return.  The names that the first walk has visited cost nothing: they are the class's own
name, unknown names, and superclasses, whose interfaces are on the stack from the start. -/
theorem supertype_of_link {child : ClassNode}
    (place : child = node ∨ hierarchy.HasSuperclass node child ∨
      child ∈ (hierarchy.supertypes node).interfaces)
    (link : hierarchy.Links node.qualifiedName interfaceNames child parent) :
    hierarchy.HasSuperclass node parent ∨ parent ∈ (hierarchy.supertypes node).interfaces := by
  obtain ⟨name, names, apart, finds⟩ := links_iff.mp link
  have listed := mem_interfaceNames_iff.mp names
  have seen : name ∈ (hierarchy.superclassChain [node.qualifiedName] node.superclassName).2 ∨
      parent ∈ (hierarchy.supertypes node).interfaces := by
    rcases place with self | above | inside
    · exact interfaceClosure_closed.1 name
        (mem_stack_iff.mpr ⟨child, .inl self, listed⟩) parent finds
    · exact interfaceClosure_closed.1 name
        (mem_stack_iff.mpr ⟨child, .inr above, listed⟩) parent finds
    · exact interfaceClosure_closed.2 child inside name listed parent finds
  rcases seen with visited | returned
  · rcases visited_of_superclassChain visited finds with old | above
    · exact absurd (List.mem_singleton.mp old) apart
    · exact .inl (mem_superclassChain_iff.mp above)
  · exact .inr returned

/-- **The walk over interfaces finds exactly the interfaces.** -/
theorem mem_interfaces_iff :
    parent ∈ (hierarchy.supertypes node).interfaces ↔ hierarchy.HasInterface node parent := by
  constructor
  · intro found
    have avoids := visited_subset_chain hierarchy [node.qualifiedName]
      node.superclassName List.mem_cons_self
    obtain ⟨-, new⟩ := mem_interfaceClosure found
    refine ⟨fun above => new (mem_superclassChain (mem_superclassChain_iff.mpr above)).2.2, ?_⟩
    obtain ⟨name, there, apart, first, finds, way⟩ := linked_of_mem_interfaceClosure avoids found
    obtain ⟨start, place, listed⟩ := mem_stack_iff.mp there
    have link : hierarchy.Links node.qualifiedName interfaceNames start first :=
      links_iff.mpr ⟨name, mem_interfaceNames_iff.mpr listed, apart, finds⟩
    exact ⟨start, place, .head' link way⟩
  · rintro ⟨noSuperclass, start, place, way⟩
    refine Or.resolve_left ?_ noSuperclass
    clear noSuperclass
    induction way with
    | single link => exact supertype_of_link (place.imp_right .inl) link
    | tail _ link ih => exact supertype_of_link (.inr ih) link

end ClassHierarchy

end ProgramModel
