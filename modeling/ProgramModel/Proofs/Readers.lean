/-
# ProgramModel.Proofs.Readers -- what the readers of arrays and objects read

A reader takes a part off the front of the tokens.  What it takes are the tokens of a tree, or of
the parts of one: the items of an array up to its end (`exists_items_of_readItems`), and the members
of an object up to its end (`exists_members_of_readFields`).  The other way round, the tokens of a
tree are read, whatever follows them.

Both loops are for any reader of an item or a field.  What one item holds is a relation of trees
and values, and what one member does to the slots of a record is a relation of slots, trees and
slots; `TakesAll` is what the members do one after the other.
-/
import Mathlib.Data.List.Forall2
import ProgramModel.Proofs.Files
import ProgramModel.Proofs.Schemas
import ProgramModel.Proofs.Trees

namespace ProgramModel.Json

set_option autoImplicit false

/-! ## Marks and single tokens -/

section Marks

variable {first more : Bool} {tokens rest : List Token}

theorem readListStep_eq_ok (step : readListStep first tokens = .ok (more, rest)) :
    (more = false ∧ rest = tokens ∧ ∃ tail, tokens = .mark .closeBracket :: tail) ∨
    (more = true ∧ tokens = separator first ++ rest) := by
  unfold readListStep at step
  split at step
  · cases step
  · cases step
    exact .inl ⟨rfl, rfl, _, rfl⟩
  · cases first with
    | true =>
        cases step
        exact .inr ⟨rfl, rfl⟩
    | false =>
        rw [if_neg Bool.false_ne_true] at step
        split at step
        · cases step
        · cases step
        · cases step
          exact .inr ⟨rfl, rfl⟩
        · cases step

theorem readListEnd_eq_ok (ends : readListEnd tokens = .ok rest) :
    tokens = .mark .closeBracket :: rest := by
  unfold readListEnd at ends
  split at ends <;> cases ends
  rfl

theorem readColon_eq_ok (reads : readColon tokens = .ok rest) :
    tokens = .mark .colon :: rest := by
  unfold readColon at reads
  split at reads <;> cases reads
  rfl

theorem readKey_eq_ok {found : Option String}
    (reads : readKey first tokens = .ok (found, rest)) :
    (found = none ∧ tokens = .mark .closeBrace :: rest) ∨
    ∃ key, found = some key ∧ tokens = separator first ++ .text (.ok key) :: rest := by
  unfold readKey at reads
  split at reads
  · cases reads
  · cases reads
    exact .inl ⟨rfl, rfl⟩
  · right
    cases first with
    | true =>
        simp only [if_true] at reads
        split at reads <;> cases reads
        exact ⟨_, rfl, rfl⟩
    | false =>
        rw [if_neg Bool.false_ne_true] at reads
        split at reads
        · cases reads
        · cases reads
        · simp only at reads
          split at reads <;> cases reads
          exact ⟨_, rfl, rfl⟩
        · cases reads

theorem readText_eq_ok {value : String} (reads : readText tokens = .ok (value, rest)) :
    tokens = .text (.ok value) :: rest := by
  unfold readText at reads
  split at reads <;> cases reads
  rfl

theorem readFlag_eq_ok {value : Bool} (reads : readFlag tokens = .ok (value, rest)) :
    tokens = .bool value :: rest := by
  unfold readFlag at reads
  split at reads <;> cases reads
  rfl

/-- A label is a text, or the key of an object with nothing under it. -/
theorem readLabel_eq_ok {names : List String} {place : Fin names.length}
    (reads : readLabel names tokens = .ok (place, rest)) :
    ∃ label, findLabel names label = .ok place ∧
      (tokens = .text (.ok label) :: rest ∨
        tokens = (Tree.ofMembers [(label, .null)]).tokens ++ rest) := by
  unfold readLabel at reads
  split at reads
  · rename_i label behind
    obtain ⟨found, finds, same⟩ := bind_eq_ok.mp reads
    cases same
    exact ⟨label, finds, .inl rfl⟩
  · cases reads
  · cases reads
  · rename_i label behind
    obtain ⟨found, finds, reads⟩ := bind_eq_ok.mp reads
    obtain ⟨value, colon, reads⟩ := bind_eq_ok.mp reads
    rw [readColon_eq_ok colon]
    split at reads
    · cases reads
      exact ⟨label, finds, .inr rfl⟩
    · cases reads
    · cases reads
    · cases reads
  all_goals cases reads

theorem readLabel_of_holds {names : List String} {place : Fin names.length} {label : String}
    (finds : findLabel names label = .ok place) (rest : List Token) :
    readLabel names (.text (.ok label) :: rest) = .ok (place, rest) ∧
    readLabel names ((Tree.ofMembers [(label, .null)]).tokens ++ rest) = .ok (place, rest) := by
  constructor
  · show (findLabel names label >>= fun place => .ok (place, rest)) = _
    rw [finds]
    rfl
  · show (findLabel names label >>= fun place => _) = _
    rw [finds]
    rfl

end Marks

/-! ## Arrays -/

section Arrays

variable {α : Type} {item : List Token → Except Fault (α × List Token)} {holds : Tree → α → Prop}
  {items : List Tree} {values : List α} {tokens rest : List Token}

/-- What is read of an array are the items of a tree. -/
theorem exists_items_of_readItems
    (sound : ∀ tokens value rest, item tokens = .ok (value, rest) →
      ∃ tree : Tree, tokens = tree.tokens ++ rest ∧ holds tree value) {fuel : Nat} {first : Bool}
    (reads : readItems item fuel first tokens = .ok (values, rest)) :
    ∃ items, tokens = Tree.itemTokens first items ++ .mark .closeBracket :: rest ∧
      List.Forall₂ holds items values := by
  induction fuel generalizing first tokens values with
  | zero => cases reads
  | succ fuel ih =>
      rw [readItems] at reads
      obtain ⟨⟨more, behind⟩, step, goes⟩ := bind_eq_ok.mp reads
      rcases readListStep_eq_ok step with ⟨rfl, same, -⟩ | ⟨rfl, rfl⟩
      · obtain ⟨last, ends, done⟩ := bind_eq_ok.mp goes
        cases done
        exact ⟨[], same ▸ readListEnd_eq_ok ends, .nil⟩
      · obtain ⟨⟨value, further⟩, one, goesOn⟩ := bind_eq_ok.mp goes
        obtain ⟨⟨others, last⟩, all, same⟩ := bind_eq_ok.mp goesOn
        cases same
        obtain ⟨tree, rfl, held⟩ := sound _ _ _ one
        obtain ⟨items, rfl, each⟩ := ih all
        refine ⟨tree :: items, ?_, .cons held each⟩
        rw [Tree.itemTokens, List.append_assoc, List.append_assoc]

theorem readItems_itemTokens
    (complete : ∀ tree value rest, holds tree value →
      item (Tree.tokens tree ++ rest) = .ok (value, rest))
    (each : List.Forall₂ holds items values) {fuel : Nat} (enough : items.length < fuel)
    (first : Bool) (rest : List Token) :
    readItems item fuel first (Tree.itemTokens first items ++ .mark .closeBracket :: rest) =
      .ok (values, rest) := by
  induction each generalizing fuel first with
  | nil =>
      obtain ⟨fuel, rfl⟩ := Nat.exists_eq_add_one_of_ne_zero (Nat.ne_of_gt enough)
      rfl
  | @cons tree value items values held _ ih =>
      obtain ⟨fuel, rfl⟩ :=
        Nat.exists_eq_add_one_of_ne_zero (Nat.ne_of_gt (Nat.zero_lt_of_lt enough))
      let further := Tree.itemTokens false items ++ .mark .closeBracket :: rest
      obtain ⟨token, tail, opens, apart, -⟩ := tree.tokens_open
      have step := readListStep_separator first (tail ++ further) apart
      have read := complete tree value further held
      have others := ih (by simpa using enough) false
      rw [opens, List.cons_append] at read
      rw [Tree.itemTokens, List.append_assoc, List.append_assoc, opens, List.cons_append, readItems,
        step]
      simp only [bind, Except.bind, if_true]
      rw [read]
      simp only [further, others]
      rfl

end Arrays

/-! ## Objects -/

section Objects

variable {α : Type} {field : String → α → List Token → Option (Except Fault (α × List Token))}
  {takes : α → String → Tree → α → Prop} {slots last : α} {members : List (String × Tree)}
  {tokens rest : List Token}

/-- The members lead from some slots to others, one by one. -/
inductive TakesAll (takes : α → String → Tree → α → Prop) :
    α → List (String × Tree) → α → Prop where
  | nil (slots : α) : TakesAll takes slots [] slots
  | cons {slots next last : α} {key : String} {tree : Tree} {members : List (String × Tree)}
      (one : takes slots key tree next) (others : TakesAll takes next members last) :
      TakesAll takes slots ((key, tree) :: members) last

theorem takesAll_cons_iff {key : String} {tree : Tree} :
    TakesAll takes slots ((key, tree) :: members) last ↔
      ∃ next, takes slots key tree next ∧ TakesAll takes next members last := by
  constructor
  · rintro (_ | ⟨one, others⟩)
    exact ⟨_, one, others⟩
  · rintro ⟨next, one, others⟩
    exact .cons one others

/-- What is read of an object are the members of a tree. -/
theorem exists_members_of_readFields
    (known : ∀ key slots tokens next rest, field key slots tokens = some (.ok (next, rest)) →
      ∃ tree : Tree, tokens = .mark .colon :: (tree.tokens ++ rest) ∧ takes slots key tree next)
    (unknown : ∀ key slots tokens tree, field key slots tokens = none → takes slots key tree slots)
    {fuel : Nat} {first : Bool}
    (reads : readFields field fuel first slots tokens = .ok (last, rest)) :
    ∃ members, tokens = Tree.memberTokens first (Tree.keyed members) ++ .mark .closeBrace :: rest ∧
      TakesAll takes slots members last := by
  induction fuel generalizing first tokens slots with
  | zero => cases reads
  | succ fuel ih =>
      rw [readFields] at reads
      obtain ⟨⟨found, behind⟩, step, goes⟩ := bind_eq_ok.mp reads
      rcases readKey_eq_ok step with ⟨rfl, rfl⟩ | ⟨key, rfl, rfl⟩
      · cases goes
        exact ⟨[], rfl, .nil _⟩
      · have goesOn {tree : Tree} {next : α} {further : List Token}
            (shape : behind = .mark .colon :: (tree.tokens ++ further))
            (one : takes slots key tree next)
            (reads : readFields field fuel false next further = .ok (last, rest)) :
            ∃ members, separator first ++ .text (.ok key) :: behind =
                Tree.memberTokens first (Tree.keyed members) ++ .mark .closeBrace :: rest ∧
              TakesAll takes slots members last := by
          obtain ⟨members, rfl, others⟩ := ih reads
          refine ⟨(key, tree) :: members, ?_, .cons one others⟩
          rw [shape]
          simp [Tree.keyed, Tree.memberTokens, Tree.fieldTokens]
        cases here : field key slots behind with
        | some read =>
            simp only [here] at goes
            obtain ⟨⟨next, further⟩, rfl, others⟩ := bind_eq_ok.mp goes
            obtain ⟨tree, shape, one⟩ := known _ _ _ _ _ here
            exact goesOn shape one others
        | none =>
            simp only [here] at goes
            obtain ⟨value, colon, goes⟩ := bind_eq_ok.mp goes
            obtain ⟨further, passes, others⟩ := bind_eq_ok.mp goes
            obtain ⟨tree, rfl⟩ := skip_eq_ok_iff.mp passes
            exact goesOn (readColon_eq_ok colon) (unknown _ _ _ tree here) others

theorem readFields_memberTokens
    (complete : ∀ slots key tree next, takes slots key tree next →
      (∀ rest, field key slots (.mark .colon :: (Tree.tokens tree ++ rest)) =
        some (.ok (next, rest))) ∨
      (next = slots ∧ ∀ tokens, field key slots tokens = none))
    (all : TakesAll takes slots members last) {fuel : Nat} (enough : members.length < fuel)
    (first : Bool) (rest : List Token) :
    readFields field fuel first slots
        (Tree.memberTokens first (Tree.keyed members) ++ .mark .closeBrace :: rest) =
      .ok (last, rest) := by
  induction all generalizing fuel first with
  | nil slots =>
      obtain ⟨fuel, rfl⟩ := Nat.exists_eq_add_one_of_ne_zero (Nat.ne_of_gt enough)
      rfl
  | @cons slots next last key tree members one _ ih =>
      obtain ⟨fuel, rfl⟩ :=
        Nat.exists_eq_add_one_of_ne_zero (Nat.ne_of_gt (Nat.zero_lt_of_lt enough))
      let further := Tree.memberTokens false (Tree.keyed members) ++ .mark .closeBrace :: rest
      have step := readKey_separator first key (.mark .colon :: (tree.tokens ++ further))
      have others := ih (by simpa using enough) false
      have shape : Tree.memberTokens first (Tree.keyed ((key, tree) :: members)) ++
          .mark .closeBrace :: rest =
          separator first ++ .text (.ok key) :: .mark .colon :: (tree.tokens ++ further) := by
        simp [Tree.keyed, Tree.memberTokens, Tree.fieldTokens, further]
      rw [shape, readFields, step]
      simp only [bind, Except.bind]
      rcases complete slots key tree next one with enters | ⟨rfl, passes⟩
      · rw [enters]
        exact others
      · rw [passes]
        simp only [readColon, skip_tokens, resume]
        exact others

/-- What is read of a table are the entries of an object of texts. -/
theorem exists_entries_of_readEntries {entries : List (String × String)} {fuel : Nat} {first : Bool}
    (reads : readEntries fuel first tokens = .ok (entries, rest)) :
    tokens = Tree.memberTokens first
      (Tree.keyed (entries.map fun entry => (entry.1, .text (.ok entry.2)))) ++
      .mark .closeBrace :: rest := by
  induction fuel generalizing first tokens entries with
  | zero => cases reads
  | succ fuel ih =>
      rw [readEntries] at reads
      obtain ⟨⟨found, behind⟩, step, goes⟩ := bind_eq_ok.mp reads
      rcases readKey_eq_ok step with ⟨rfl, rfl⟩ | ⟨key, rfl, rfl⟩
      · cases goes
        rfl
      · obtain ⟨value, colon, entry⟩ := bind_eq_ok.mp goes
        obtain ⟨⟨text, further⟩, one, goesOn⟩ := bind_eq_ok.mp entry
        obtain ⟨⟨others, last⟩, all, same⟩ := bind_eq_ok.mp goesOn
        cases same
        rw [readColon_eq_ok colon, readText_eq_ok one, ih all]
        simp [Tree.keyed, Tree.memberTokens, Tree.fieldTokens, Tree.tokens]

/-- The tokens of entries are those that they are written with. -/
theorem memberTokens_entries (first : Bool) (entries : List (String × String)) :
    Tree.memberTokens first (Tree.keyed (entries.map fun entry => (entry.1, .text (.ok entry.2)))) =
      memberSpelling first (entries.map fun entry => (entry.1, .text entry.2)) := by
  induction entries generalizing first with
  | nil => rfl
  | cons entry entries ih =>
      have others := ih false
      simp only [Tree.keyed, List.map_cons] at others ⊢
      rw [Tree.memberTokens, Tree.fieldTokens, Tree.tokens, others, memberSpelling, fieldSpelling,
        spelling]

end Objects

end ProgramModel.Json
