/-
# ProgramModel.Build.Supertypes -- the supertypes of a class that its hierarchy knows

From a class the walk follows superclass names until a name is unknown or has
been met before, and then every interface that the class or one of those
superclasses names, and the interfaces of interfaces.  A name is visited once; the
class's own name counts as visited from the start, so cycles end and a class is
never its own supertype.
-/
import ProgramModel.ClassHierarchy

namespace ProgramModel

set_option autoImplicit false

/-- The supertypes of a class, in the order in which the walk meets them. -/
structure Supertypes where
  superclasses : List ClassNode
  interfaces : List ClassNode

namespace ClassHierarchy

/-! ## What is left to visit -/

/-- How many entries of the hierarchy have a name that has not been visited. -/
def unvisited (hierarchy : ClassHierarchy) (visited : List String) : Nat :=
  hierarchy.names.countP fun name => !visited.contains name

theorem countP_lt_countP {list : List String} {keep fewer : String → Bool} {name : String}
    (found : name ∈ list) (kept : keep name = true) (dropped : fewer name = false)
    (below : ∀ other, fewer other = true → keep other = true) :
    list.countP fewer < list.countP keep := by
  induction list with
  | nil => simp at found
  | cons head rest ih =>
      have smaller : rest.countP fewer ≤ rest.countP keep :=
        List.countP_mono_left fun other _ => below other
      simp only [List.countP_cons]
      rcases List.mem_cons.mp found with rfl | later
      · simp only [kept, dropped, if_true, Bool.false_eq_true, if_false]
        omega
      · have less := ih later
        cases fewerHead : fewer head with
        | true => simpa [below head fewerHead] using less
        | false => cases keep head <;> simp <;> omega

theorem contains_of_unvisited {visited : List String} {name other : String}
    (new : (!(name :: visited).contains other) = true) : (!visited.contains other) = true := by
  simp only [List.contains_cons, Bool.not_or, Bool.and_eq_true] at new
  exact new.2

theorem unvisited_cons_le (hierarchy : ClassHierarchy) (visited : List String) (name : String) :
    hierarchy.unvisited (name :: visited) ≤ hierarchy.unvisited visited :=
  List.countP_mono_left fun _ _ => contains_of_unvisited

/-- Visiting a known name for the first time leaves less to visit. -/
theorem unvisited_cons_lt {hierarchy : ClassHierarchy} {visited : List String} {name : String}
    (known : name ∈ hierarchy.names) (fresh : visited.contains name = false) :
    hierarchy.unvisited (name :: visited) < hierarchy.unvisited visited :=
  countP_lt_countP known (by simp only [fresh, Bool.not_false]) (by simp)
    fun _ => contains_of_unvisited

/-! ## The two walks -/

set_option linter.unusedVariables false in
/-- The superclasses from a name on, nearest first, and all names visited by then. -/
def superclassChain (hierarchy : ClassHierarchy) (visited : List String) :
    Option String → List ClassNode × List String
  | none => ([], visited)
  | some name =>
      if fresh : visited.contains name = true then ([], visited)
      else
        match known : hierarchy.find? name with
        | none => ([], name :: visited)
        | some node =>
            let (further, visited) :=
              hierarchy.superclassChain (name :: visited) node.superclassName
            (node :: further, visited)
  termination_by hierarchy.unvisited visited
  decreasing_by exact unvisited_cons_lt (mem_names_of_find? known) (by simpa using fresh)

set_option linter.unusedVariables false in
/-- The interfaces that a stack of names leads to, in the order of the visits. -/
def interfaceClosure (hierarchy : ClassHierarchy) (visited : List String) :
    List String → List ClassNode
  | [] => []
  | name :: pending =>
      if fresh : visited.contains name = true then hierarchy.interfaceClosure visited pending
      else
        match known : hierarchy.find? name with
        | none => hierarchy.interfaceClosure (name :: visited) pending
        | some node =>
            node :: hierarchy.interfaceClosure (name :: visited)
              (node.interfaceNames.reverse ++ pending)
  termination_by pending => (hierarchy.unvisited visited, pending.length)
  decreasing_by
    · exact Prod.Lex.right _ (by simp)
    · rcases Nat.lt_or_eq_of_le (unvisited_cons_le hierarchy visited name) with less | same
      · exact Prod.Lex.left _ _ less
      · rw [same]; exact Prod.Lex.right _ (by simp)
    · exact Prod.Lex.left _ _ (unvisited_cons_lt (mem_names_of_find? known) (by simpa using fresh))

/-- The supertypes of a class.  The interface named last is visited first. -/
def supertypes (hierarchy : ClassHierarchy) (node : ClassNode) : Supertypes :=
  let (superclasses, visited) :=
    hierarchy.superclassChain [node.qualifiedName] node.superclassName
  let pending := node.interfaceNames ++ superclasses.flatMap ClassNode.interfaceNames
  ⟨superclasses, hierarchy.interfaceClosure visited pending.reverse⟩

end ClassHierarchy

end ProgramModel
