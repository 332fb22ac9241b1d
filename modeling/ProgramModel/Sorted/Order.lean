/-
# ProgramModel.Sorted.Order -- orders that read a value field by field

Every collection that the library shows to the outside is shown in order, so
each record that lives in one is compared by its fields, one after another.
The comparison of a record is a `compareLex` chain of `compareOn` steps; two
lemmas here turn "all fields agree" into "the records agree", which is the half
of lawfulness that core does not derive.  The third, `eq_of_strict_pairwise`, is
why a sorted collection has one list only.
-/
namespace ProgramModel

set_option autoImplicit false

universe u v

/-- A chain of comparisons ends in `eq` only when every link does. -/
theorem compareLex_eq {α : Type u} {first second : α → α → Ordering} {a b : α}
    (equal : compareLex first second a b = .eq) : first a b = .eq ∧ second a b = .eq := by
  unfold compareLex at equal
  cases step : first a b <;> simp_all [Ordering.then]

/-- Comparing by a field that agrees gives the equality of that field. -/
theorem compareOn_eq {α : Type u} {β : Type v} [Ord β] [Std.LawfulEqOrd β] {field : α → β}
    {a b : α} (equal : compareOn field a b = .eq) : field a = field b :=
  Std.LawfulEqOrd.eq_of_compare equal

/-- Two lists in strict order with the same members are the same list. -/
theorem eq_of_strict_pairwise {α : Type u} {below : α → α → Prop}
    (irreflexive : ∀ a, ¬ below a a) (asymmetric : ∀ a b, below a b → ¬ below b a)
    {left right : List α} (leftOrdered : left.Pairwise below) (rightOrdered : right.Pairwise below)
    (same : ∀ x, x ∈ left ↔ x ∈ right) : left = right := by
  induction left generalizing right with
  | nil =>
      cases right with
      | nil => rfl
      | cons y rest => exact absurd ((same y).mpr List.mem_cons_self) (by simp)
  | cons x leftRest ih =>
      cases right with
      | nil => exact absurd ((same x).mp List.mem_cons_self) (by simp)
      | cons y rightRest =>
          obtain ⟨leftBelow, leftLater⟩ := List.pairwise_cons.mp leftOrdered
          obtain ⟨rightBelow, rightLater⟩ := List.pairwise_cons.mp rightOrdered
          have heads : x = y := by
            rcases List.mem_cons.mp ((same x).mp List.mem_cons_self) with equal | inRight
            · exact equal
            rcases List.mem_cons.mp ((same y).mpr List.mem_cons_self) with equal | inLeft
            · exact equal.symm
            exact absurd (rightBelow x inRight) (asymmetric _ _ (leftBelow y inLeft))
          subst heads
          congr 1
          refine ih leftLater rightLater fun z => ⟨fun found => ?_, fun found => ?_⟩
          · rcases List.mem_cons.mp ((same z).mp (List.mem_cons_of_mem _ found)) with rfl | there
            · exact absurd (leftBelow _ found) (irreflexive _)
            · exact there
          · rcases List.mem_cons.mp ((same z).mpr (List.mem_cons_of_mem _ found)) with rfl | there
            · exact absurd (rightBelow _ found) (irreflexive _)
            · exact there

theorem not_compare_self_lt {α : Type u} [Ord α] [Std.ReflOrd α] (a : α) :
    ¬ compare a a = .lt := by
  rw [Std.ReflOrd.compare_self]; decide

theorem not_compare_swap_lt {α : Type u} [Ord α] [Std.OrientedOrd α] (a b : α)
    (less : compare a b = .lt) : ¬ compare b a = .lt := by
  rw [Std.OrientedCmp.gt_of_lt less]; decide

end ProgramModel
