/-
# ProgramModel.Proofs.Walks -- the loops of the walk to the supertypes end

The walk to the supertypes of a class is two loops over one record (`Walk`).  A pass of the
first takes the next superclass name, a pass of the second takes an interface name from the
stack; each drops a name that has been visited, and otherwise marks it and looks it up.  The
stack grows while it is consumed, and names that the hierarchy does not know are marked too.

Two measures show that both loops end from every state.  The first loop is left at a visited
or unknown name, and a known name that is new leaves fewer classes to visit.  What the second
loop has to do is its `load`: the names on the stack, and those that unvisited classes may
still push.  A class is opened once, so the load falls with every pass, and the first loop does
not raise it.  So the passes are bounded by the size of the hierarchy.

Each pass keeps the walk `Sound`: what it has found are nodes that their names find, and no two
of them have one name.  What the loops end with are the supertypes (`supertypes_eq_of_loops`), so
this holds of the supertypes of every class (`supertypes_walk_ends`).
-/
import Mathlib.Data.List.Nodup
import ProgramModel.Proofs.Supertypes

namespace ProgramModel

set_option autoImplicit false

/-! ## Loops -/

/-- A loop ends after a number of passes.  It is left in a state in which there is no pass. -/
inductive Loops {σ : Type} (pass : σ → Option σ) : Nat → σ → σ → Prop
  | done {state : σ} (stops : pass state = none) : Loops pass 0 state state
  | again {state next final : σ} {passes : Nat} (goes : pass state = some next)
      (rest : Loops pass passes next final) : Loops pass (passes + 1) state final

namespace Loops

variable {σ : Type} {pass : σ → Option σ}

/-- **A loop ends within as many passes as a measure has room for**, if each pass lowers it. -/
theorem exists_of_lowers {left : σ → Nat}
    (lowers : ∀ state next, pass state = some next → left next < left state) (state : σ) :
    ∃ passes final, Loops pass passes state final ∧ passes ≤ left state := by
  induction room : left state using Nat.strongRecOn generalizing state with
  | ind room ih =>
      cases goes : pass state with
      | none => exact ⟨0, state, .done goes, Nat.zero_le _⟩
      | some next =>
          have less := lowers state next goes
          obtain ⟨passes, final, rest, few⟩ := ih (left next) (by omega) next rfl
          exact ⟨passes + 1, final, .again goes rest, by omega⟩

/-- **What each pass keeps, the loop keeps.** -/
theorem keeps {holds : σ → Prop} {passes : Nat} {state final : σ}
    (loops : Loops pass passes state final)
    (step : ∀ state next, pass state = some next → holds state → holds next)
    (before : holds state) : holds final := by
  induction loops with
  | done stops => exact before
  | again goes rest ih => exact ih (step _ _ goes before)

end Loops

/-! ## The walk as two loops -/

/-- A walk to supertypes under way. -/
structure Walk where
  /-- The name of the superclass to visit next, until the first loop is left. -/
  next : Option String
  visited : List String
  /-- The names of interfaces to look for, as a stack. -/
  pending : List String
  superclasses : List ClassNode := []
  interfaces : List ClassNode := []

def Walk.start (node : ClassNode) : Walk where
  next := node.superclassName
  visited := [node.qualifiedName]
  pending := node.interfaceNames.reverse

namespace ClassHierarchy

/-- A pass of the first loop: visit the next superclass, or leave. -/
def climb (hierarchy : ClassHierarchy) (walk : Walk) : Option Walk :=
  walk.next.map fun name =>
    if name ∈ walk.visited then { walk with next := none }
    else
      let visited := name :: walk.visited
      match hierarchy.find? name with
      | none => { walk with next := none, visited }
      | some node =>
          { walk with
            next := node.superclassName
            visited
            pending := node.interfaceNames.reverse ++ walk.pending
            superclasses := walk.superclasses ++ [node] }

/-- A pass of the second loop: visit the interface on top of the stack. -/
def search (hierarchy : ClassHierarchy) (walk : Walk) : Option Walk :=
  match walk.pending with
  | [] => none
  | name :: pending =>
      if name ∈ walk.visited then some { walk with pending }
      else
        let visited := name :: walk.visited
        match hierarchy.find? name with
        | none => some { walk with visited, pending }
        | some node =>
            some { walk with
              visited
              pending := node.interfaceNames.reverse ++ pending
              interfaces := walk.interfaces ++ [node] }

variable {hierarchy : ClassHierarchy} {walk later final : Walk} {node parent : ClassNode}
  {visited : List String} {name : String} {passes : Nat}

/-- **All that a pass of the first loop can do.** -/
theorem climb_cases (goes : hierarchy.climb walk = some later) :
    ∃ name, walk.next = some name ∧
      (name ∈ walk.visited ∧ later = { walk with next := none } ∨
      name ∉ walk.visited ∧ hierarchy.find? name = none ∧
        later = { walk with next := none, visited := name :: walk.visited } ∨
      ∃ node, name ∉ walk.visited ∧ hierarchy.find? name = some node ∧
        later = { walk with
          next := node.superclassName
          visited := name :: walk.visited
          pending := node.interfaceNames.reverse ++ walk.pending
          superclasses := walk.superclasses ++ [node] }) := by
  obtain ⟨name, next, rfl⟩ := Option.map_eq_some_iff.mp goes
  refine ⟨name, next, ?_⟩
  by_cases old : name ∈ walk.visited
  · exact .inl ⟨old, if_pos old⟩
  · rw [if_neg old]
    cases known : hierarchy.find? name with
    | none => exact .inr (.inl ⟨old, rfl, rfl⟩)
    | some node => exact .inr (.inr ⟨node, old, rfl, rfl⟩)

/-- **All that a pass of the second loop can do.** -/
theorem search_cases (goes : hierarchy.search walk = some later) :
    ∃ name pending, walk.pending = name :: pending ∧
      (name ∈ walk.visited ∧ later = { walk with pending } ∨
      name ∉ walk.visited ∧ hierarchy.find? name = none ∧
        later = { walk with visited := name :: walk.visited, pending } ∨
      ∃ node, name ∉ walk.visited ∧ hierarchy.find? name = some node ∧
        later = { walk with
          visited := name :: walk.visited
          pending := node.interfaceNames.reverse ++ pending
          interfaces := walk.interfaces ++ [node] }) := by
  unfold search at goes
  cases stack : walk.pending with
  | nil =>
      rw [stack] at goes
      cases goes
  | cons name pending =>
      rw [stack] at goes
      refine ⟨name, pending, rfl, ?_⟩
      by_cases old : name ∈ walk.visited
      · simp only [if_pos old, Option.some.injEq] at goes
        exact .inl ⟨old, goes.symm⟩
      · simp only [if_neg old] at goes
        cases known : hierarchy.find? name with
        | none =>
            rw [known] at goes
            cases goes
            exact .inr (.inl ⟨old, rfl, rfl⟩)
        | some node =>
            rw [known] at goes
            cases goes
            exact .inr (.inr ⟨node, old, rfl, rfl⟩)

theorem next_of_climb_eq_none (stops : hierarchy.climb walk = none) : walk.next = none :=
  Option.map_eq_none_iff.mp stops

theorem pending_of_search_eq_none (stops : hierarchy.search walk = none) : walk.pending = [] := by
  unfold search at stops
  split at stops
  · assumption
  · split at stops
    · cases stops
    · dsimp only at stops
      split at stops <;> cases stops

/-! ## What is left to do -/

/-- The names that a class may still push: those that it lists, until it is visited. -/
def pushes (visited : List String) (node : ClassNode) : List String :=
  if node.qualifiedName ∈ visited then [] else node.interfaceNames

theorem length_pushes_le (visited : List String) (node : ClassNode) :
    (pushes visited node).length ≤ node.interfaceNames.length := by
  unfold pushes
  split
  · exact Nat.zero_le _
  · exact Nat.le_refl _

theorem length_pushes_cons_le (visited : List String) (name : String) (node : ClassNode) :
    (pushes (name :: visited) node).length ≤ (pushes visited node).length := by
  by_cases old : node.qualifiedName ∈ visited
  · have closed : pushes (name :: visited) node = [] := if_pos (List.mem_cons_of_mem _ old)
    rw [closed]
    exact Nat.zero_le _
  · have whole : pushes visited node = node.interfaceNames := if_neg old
    rw [whole]
    exact length_pushes_le _ node

/-- The names that all classes may still push. -/
def unopened (hierarchy : ClassHierarchy) (visited : List String) : List String :=
  hierarchy.classes.flatMap (pushes visited)

theorem length_flatMap_le {α β : Type} {fewer more : α → List β}
    (each : ∀ x, (fewer x).length ≤ (more x).length) (list : List α) :
    (list.flatMap fewer).length ≤ (list.flatMap more).length := by
  induction list with
  | nil => exact Nat.le_refl _
  | cons first rest ih =>
      rw [List.flatMap_cons, List.flatMap_cons, List.length_append, List.length_append]
      exact Nat.add_le_add (each first) ih

theorem length_unopened_cons_le (hierarchy : ClassHierarchy) (visited : List String)
    (name : String) :
    (hierarchy.unopened (name :: visited)).length ≤ (hierarchy.unopened visited).length :=
  length_flatMap_le (length_pushes_cons_le visited name) hierarchy.classes

/-- **A class that is visited for the first time pays for the names that it pushes.** -/
theorem length_unopened_cons_add_le (fresh : name ∉ visited)
    (known : hierarchy.find? name = some node) :
    (hierarchy.unopened (name :: visited)).length + node.interfaceNames.length ≤
      (hierarchy.unopened visited).length := by
  obtain ⟨before, after, split⟩ := List.append_of_mem (mem_of_find? known)
  have named := qualifiedName_of_find? known
  have closed : pushes (name :: visited) node = [] := if_pos (named ▸ List.mem_cons_self)
  have whole : pushes visited node = node.interfaceNames := if_neg (named ▸ fresh)
  -- The class itself counts no more from now on, and nothing else counts more than before.
  have front := length_flatMap_le (length_pushes_cons_le visited name) before
  have back := length_flatMap_le (length_pushes_cons_le visited name) after
  unfold unopened
  simp only [split, List.flatMap_append, List.flatMap_cons, List.length_append, closed, whole,
    List.length_nil]
  omega

/-- The names that the second loop has yet to take from the stack, at most. -/
def load (hierarchy : ClassHierarchy) (walk : Walk) : Nat :=
  walk.pending.length + (hierarchy.unopened walk.visited).length

/-- The passes that the first loop has yet to make, at most. -/
def climbsLeft (hierarchy : ClassHierarchy) (walk : Walk) : Nat :=
  hierarchy.unvisited walk.visited + walk.next.toList.length

theorem climbsLeft_of_climb (goes : hierarchy.climb walk = some later) :
    hierarchy.climbsLeft later < hierarchy.climbsLeft walk := by
  obtain ⟨name, next, ⟨-, rfl⟩ | ⟨-, -, rfl⟩ | ⟨node, fresh, known, rfl⟩⟩ := climb_cases goes
  · simp [climbsLeft, next]
  · have fewer := unvisited_cons_le hierarchy walk.visited name
    simp only [climbsLeft, next, Option.toList_none, Option.toList_some, List.length_nil,
      List.length_singleton]
    omega
  · have fewer := unvisited_cons_lt (mem_names_of_find? known) (by simpa using fresh)
    have atMostOne : node.superclassName.toList.length ≤ 1 := by
      cases node.superclassName <;> simp
    simp only [climbsLeft, next, Option.toList_some, List.length_singleton]
    omega

theorem load_of_climb (goes : hierarchy.climb walk = some later) :
    hierarchy.load later ≤ hierarchy.load walk := by
  obtain ⟨name, -, ⟨-, rfl⟩ | ⟨-, -, rfl⟩ | ⟨node, fresh, known, rfl⟩⟩ := climb_cases goes
  · exact Nat.le_refl _
  · exact Nat.add_le_add_left (length_unopened_cons_le _ _ _) _
  · have paid := length_unopened_cons_add_le fresh known
    simp only [load, List.length_append, List.length_reverse]
    omega

theorem load_of_search (goes : hierarchy.search walk = some later) :
    hierarchy.load later < hierarchy.load walk := by
  obtain ⟨name, pending, stack, ⟨-, rfl⟩ | ⟨-, -, rfl⟩ | ⟨node, fresh, known, rfl⟩⟩ :=
    search_cases goes
  · simp [load, stack]
  · have fewer := length_unopened_cons_le hierarchy walk.visited name
    simp only [load, stack, List.length_cons]
    omega
  · have paid := length_unopened_cons_add_le fresh known
    simp only [load, stack, List.length_append, List.length_reverse, List.length_cons]
    omega

/-- At the start there is no more to do than the class and the hierarchy list. -/
theorem climbsLeft_start (hierarchy : ClassHierarchy) (node : ClassNode) :
    hierarchy.climbsLeft (.start node) ≤ hierarchy.classes.length + 1 := by
  have unvisited : hierarchy.unvisited [node.qualifiedName] ≤ hierarchy.names.length :=
    List.countP_le_length
  have all : hierarchy.names.length = hierarchy.classes.length := List.length_map _
  have atMostOne : node.superclassName.toList.length ≤ 1 := by
    cases node.superclassName <;> simp
  simp only [climbsLeft, Walk.start]
  omega

theorem load_start (hierarchy : ClassHierarchy) (node : ClassNode) :
    hierarchy.load (.start node) ≤ node.interfaceNames.length +
      (hierarchy.classes.flatMap ClassNode.interfaceNames).length := by
  have listed : (hierarchy.unopened [node.qualifiedName]).length ≤
      (hierarchy.classes.flatMap ClassNode.interfaceNames).length :=
    length_flatMap_le (length_pushes_le _) hierarchy.classes
  simp only [load, Walk.start, List.length_reverse]
  omega

/-! ## What a walk keeps -/

/-- What a walk from a class has found are nodes that a look-up of their names finds.  Neither they
nor the class share a name, their names are marked, and no name is marked twice. -/
structure Sound (hierarchy : ClassHierarchy) (node : ClassNode) (walk : Walk) : Prop where
  indexed : ∀ parent ∈ walk.superclasses ++ walk.interfaces,
    hierarchy.find? parent.qualifiedName = some parent
  distinct : ((node :: walk.superclasses ++ walk.interfaces).map ClassNode.qualifiedName).Nodup
  marked : ∀ parent ∈ node :: walk.superclasses ++ walk.interfaces,
    parent.qualifiedName ∈ walk.visited
  once : walk.visited.Nodup

theorem sound_start (hierarchy : ClassHierarchy) (node : ClassNode) :
    hierarchy.Sound node (.start node) where
  indexed _ there := absurd there List.not_mem_nil
  distinct := List.nodup_singleton _
  marked _ there := List.mem_map_of_mem there
  once := List.nodup_singleton _

/-- A pass that finds nothing keeps a walk sound, whether or not it marks a name. -/
theorem Sound.of_same (sound : hierarchy.Sound node walk)
    (superclasses : later.superclasses = walk.superclasses)
    (interfaces : later.interfaces = walk.interfaces)
    (marks : later.visited = walk.visited ∨
      ∃ name, name ∉ walk.visited ∧ later.visited = name :: walk.visited) :
    hierarchy.Sound node later where
  indexed := by
    rw [superclasses, interfaces]
    exact sound.indexed
  distinct := by
    rw [superclasses, interfaces]
    exact sound.distinct
  marked := by
    rw [superclasses, interfaces]
    intro parent there
    have old := sound.marked parent there
    rcases marks with same | ⟨name, -, same⟩
    · rwa [same]
    · rw [same]
      exact List.mem_cons_of_mem _ old
  once := by
    rcases marks with same | ⟨name, fresh, same⟩
    · rw [same]
      exact sound.once
    · rw [same]
      exact List.nodup_cons.mpr ⟨fresh, sound.once⟩

/-- **A pass that finds a node under a new name keeps a walk sound**, whichever list it is put in. -/
theorem Sound.of_found (sound : hierarchy.Sound node walk) (fresh : name ∉ walk.visited)
    (known : hierarchy.find? name = some parent)
    (finds : (later.superclasses ++ later.interfaces).Perm
      (parent :: (walk.superclasses ++ walk.interfaces)))
    (marks : later.visited = name :: walk.visited) : hierarchy.Sound node later := by
  obtain rfl := qualifiedName_of_find? known
  have listed : (node :: later.superclasses ++ later.interfaces).Perm
      (parent :: (node :: walk.superclasses ++ walk.interfaces)) :=
    (finds.cons node).trans (.swap parent node _)
  constructor
  · intro other there
    rcases List.mem_cons.mp (finds.mem_iff.mp there) with rfl | old
    · exact known
    · exact sound.indexed other old
  · refine ((listed.map ClassNode.qualifiedName).nodup_iff).mpr ?_
    refine List.nodup_cons.mpr ⟨fun again => ?_, sound.distinct⟩
    obtain ⟨other, there, same⟩ := List.mem_map.mp again
    exact fresh (same ▸ sound.marked other there)
  · intro other there
    rw [marks]
    rcases List.mem_cons.mp (listed.mem_iff.mp there) with rfl | old
    · exact List.mem_cons_self
    · exact List.mem_cons_of_mem _ (sound.marked other old)
  · rw [marks]
    exact List.nodup_cons.mpr ⟨fresh, sound.once⟩

theorem Sound.climb (goes : hierarchy.climb walk = some later) (sound : hierarchy.Sound node walk) :
    hierarchy.Sound node later := by
  obtain ⟨name, -, ⟨-, rfl⟩ | ⟨fresh, -, rfl⟩ | ⟨parent, fresh, known, rfl⟩⟩ := climb_cases goes
  · exact sound.of_same rfl rfl (.inl rfl)
  · exact sound.of_same rfl rfl (.inr ⟨name, fresh, rfl⟩)
  · refine sound.of_found fresh known ?_ rfl
    rw [List.append_assoc]
    exact List.perm_middle

theorem Sound.search (goes : hierarchy.search walk = some later)
    (sound : hierarchy.Sound node walk) : hierarchy.Sound node later := by
  obtain ⟨name, pending, -, ⟨-, rfl⟩ | ⟨fresh, -, rfl⟩ | ⟨parent, fresh, known, rfl⟩⟩ :=
    search_cases goes
  · exact sound.of_same rfl rfl (.inl rfl)
  · exact sound.of_same rfl rfl (.inr ⟨name, fresh, rfl⟩)
  · refine sound.of_found fresh known ?_ rfl
    rw [← List.append_assoc]
    exact List.perm_append_singleton _ _

/-! ## Where the loops end -/

/-- The first loop ends with the chain of superclasses, and their interfaces on the stack. -/
theorem eq_of_climbs (loops : Loops hierarchy.climb passes walk final) :
    let (found, visited) := hierarchy.superclassChain walk.visited walk.next
    final = { walk with
      next := none
      visited
      pending := (found.flatMap ClassNode.interfaceNames).reverse ++ walk.pending
      superclasses := walk.superclasses ++ found } := by
  -- The loop adds to the end of its list, the chain to the front, so the state stays general.
  induction loops with
  | done stops =>
      have stopped := next_of_climb_eq_none stops
      rw [stopped, superclassChain_none]
      simp [← stopped]
  | again goes rest ih =>
      obtain ⟨name, next, ⟨old, rfl⟩ | ⟨fresh, unknown, rfl⟩ | ⟨node, fresh, known, rfl⟩⟩ :=
        climb_cases goes
      · rw [next, superclassChain_visited old]
        simpa using ih
      · rw [next, superclassChain_unknown fresh unknown]
        simpa using ih
      · rw [next, superclassChain_known fresh known]
        simpa using ih

/-- The second loop ends with the interfaces that the stack leads to. -/
theorem lists_of_searches (loops : Loops hierarchy.search passes walk final) :
    final.superclasses = walk.superclasses ∧
      final.interfaces =
        walk.interfaces ++ hierarchy.interfaceClosure walk.visited walk.pending := by
  induction loops with
  | done stops => simp [pending_of_search_eq_none stops]
  | again goes rest ih =>
      obtain ⟨name, pending, stack, ⟨old, rfl⟩ | ⟨fresh, unknown, rfl⟩ | ⟨node, fresh, known, rfl⟩⟩ :=
        search_cases goes
      · rw [stack, interfaceClosure_visited old]
        exact ih
      · rw [stack, interfaceClosure_unknown fresh unknown]
        exact ih
      · rw [stack, interfaceClosure_known fresh known]
        simpa using ih

/-- **The supertypes of a class are what the two loops end with.** -/
theorem supertypes_eq_of_loops {climbs searches : Nat} {middle : Walk}
    (first : Loops hierarchy.climb climbs (.start node) middle)
    (second : Loops hierarchy.search searches middle final) :
    hierarchy.supertypes node = ⟨final.superclasses, final.interfaces⟩ := by
  obtain ⟨superclasses, interfaces⟩ := lists_of_searches second
  rw [superclasses, interfaces, eq_of_climbs first]
  simp [supertypes, Walk.start]

/-! ## The chain of superclasses -/

/-- Each superclass is linked from the one in front of it, and the nearest one from the class. -/
theorem isChain_superclassChain {own : String} {visited : List String} {start : Option String}
    {child : ClassNode} (avoids : own ∈ visited) (named : child.superclassName = start) :
    (child :: (hierarchy.superclassChain visited start).1).IsChain
      (hierarchy.Links own superclassNames) := by
  induction visited, start using superclassChain_induction hierarchy generalizing child with
  | ends visited => simp
  | repeats visited name old => simp [superclassChain_visited old]
  | misses visited name fresh unknown => simp [superclassChain_unknown fresh unknown]
  | goesOn visited name node fresh known ih =>
      rw [superclassChain_known fresh known]
      have link := links_superclass avoids named fresh known
      exact List.isChain_cons_cons.mpr ⟨link, ih (List.mem_cons_of_mem _ avoids) rfl⟩

/-- The chain goes on for as long as links lead to anything new. -/
theorem mem_superclasses_of_links {child : ClassNode}
    (there : child ∈ node :: (hierarchy.supertypes node).superclasses)
    (link : hierarchy.Links node.qualifiedName superclassNames child parent) :
    parent ∈ (hierarchy.supertypes node).superclasses := by
  rw [mem_superclasses_iff]
  rcases List.mem_cons.mp there with rfl | above
  · exact .single link
  · exact .tail (mem_superclasses_iff.mp above) link

/-- **The walk to the supertypes ends, and visits a name once.**  For every hierarchy and every
class, with cycles, gaps and repeated names: both loops end, after no more passes than there are
classes and listed interfaces, and what they end with are the supertypes.  The superclasses stand
in the order of the chain, nearest first, and the chain breaks off only where nothing new follows.
No two of the class, its superclasses and its interfaces have one name, and each superclass and
interface is the node that a look-up of its name finds. -/
theorem supertypes_walk_ends (hierarchy : ClassHierarchy) (node : ClassNode) :
    let found := hierarchy.supertypes node
    let links := hierarchy.Links node.qualifiedName superclassNames
    (∃ climbs searches middle final,
      Loops hierarchy.climb climbs (.start node) middle ∧
      Loops hierarchy.search searches middle final ∧
      climbs ≤ hierarchy.classes.length + 1 ∧
      searches ≤ node.interfaceNames.length +
        (hierarchy.classes.flatMap ClassNode.interfaceNames).length ∧
      final.visited.Nodup ∧ found = ⟨final.superclasses, final.interfaces⟩) ∧
    (node :: found.superclasses).IsChain links ∧
    (∀ child ∈ node :: found.superclasses, ∀ parent, links child parent →
      parent ∈ found.superclasses) ∧
    ((node :: found.superclasses ++ found.interfaces).map ClassNode.qualifiedName).Nodup ∧
    ∀ parent ∈ found.superclasses ++ found.interfaces,
      hierarchy.find? parent.qualifiedName = some parent := by
  intro found links
  obtain ⟨climbs, middle, first, fewClimbs⟩ :=
    Loops.exists_of_lowers (@climbsLeft_of_climb hierarchy) (.start node)
  obtain ⟨searches, final, second, fewSearches⟩ :=
    Loops.exists_of_lowers (@load_of_search hierarchy) middle
  have notMore : hierarchy.load middle ≤ hierarchy.load (.start node) :=
    first.keeps (fun _ _ goes before => Nat.le_trans (load_of_climb goes) before) (Nat.le_refl _)
  have sound : hierarchy.Sound node final :=
    second.keeps (fun _ _ => Sound.search)
      (first.keeps (fun _ _ => Sound.climb) (sound_start hierarchy node))
  have ends : found = ⟨final.superclasses, final.interfaces⟩ := supertypes_eq_of_loops first second
  refine ⟨⟨climbs, searches, middle, final, first, second,
    Nat.le_trans fewClimbs (climbsLeft_start hierarchy node),
    Nat.le_trans fewSearches (Nat.le_trans notMore (load_start hierarchy node)),
    sound.once, ends⟩, ?_, ?_, ?_⟩
  · exact isChain_superclassChain List.mem_cons_self rfl
  · exact fun child there parent link => mem_superclasses_of_links there link
  · rw [ends]
    exact ⟨sound.distinct, sound.indexed⟩

end ClassHierarchy

end ProgramModel
