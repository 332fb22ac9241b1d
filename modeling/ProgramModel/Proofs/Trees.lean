/-
# ProgramModel.Proofs.Trees -- JSON texts as trees

The tokens of a whole value are those of a tree.  A `Tree` keeps what the tokens say and no more:
words, texts and numbers with their strict readings, items in their order, and members under their
keys as often as they are there.  Unlike a value that is written (`Json`), a tree has the texts and
numbers in it that only a lenient reader passes over.

Passing over a value follows brackets and nothing else, with a stack of those that are open.  It
gets past the tokens of every tree (`skip_tokens`), and past nothing else: where it stops, it has
got past a tree (`exists_tree_of_skip`).
-/
import ProgramModel.Proofs.Spelling
import ProgramModel.Schema.Json

namespace ProgramModel.Json

set_option autoImplicit false

/-- A JSON text by what its tokens say. -/
inductive Tree where
  | null
  | bool (value : Bool)
  | text (strict : Except Fault String)
  | number (strict : Except Fault Found)
  | array (items : List Tree)
  | object (members : List (Except Fault String × Tree))

namespace Tree

mutual

/-- The tokens of a tree. -/
def tokens : Tree → List Token
  | .null => [.null]
  | .bool value => [.bool value]
  | .text strict => [.text strict]
  | .number strict => [.number strict]
  | .array items => .mark .openBracket :: (itemTokens true items ++ [.mark .closeBracket])
  | .object members => .mark .openBrace :: (memberTokens true members ++ [.mark .closeBrace])

def itemTokens (first : Bool) : List Tree → List Token
  | [] => []
  | item :: rest => separator first ++ (item.tokens ++ itemTokens false rest)

def memberTokens (first : Bool) : List (Except Fault String × Tree) → List Token
  | [] => []
  | member :: rest => separator first ++ (fieldTokens member ++ memberTokens false rest)

def fieldTokens : Except Fault String × Tree → List Token
  | (key, value) => .text key :: .mark .colon :: value.tokens

end

/-- Members whose keys can be read. -/
def keyed (members : List (String × Tree)) : List (Except Fault String × Tree) :=
  members.map fun member => (.ok member.1, member.2)

/-- The object of members whose keys can be read. -/
def ofMembers (members : List (String × Tree)) : Tree := .object (keyed members)

theorem keyed_injective {members others : List (String × Tree)}
    (same : keyed members = keyed others) : members = others := by
  refine (List.map_inj_right fun member other equal => ?_).mp same
  obtain ⟨key, tree⟩ := member
  obtain ⟨another, further⟩ := other
  simpa using equal

theorem ofMembers_injective {members others : List (String × Tree)}
    (same : ofMembers members = ofMembers others) : members = others :=
  keyed_injective (object.inj same)

/-- A tree opens with a token that closes nothing. -/
theorem tokens_open (tree : Tree) : ∃ token tail, tree.tokens = token :: tail ∧
    token ≠ .mark .closeBracket ∧ token ≠ .mark .closeBrace := by
  cases tree <;> exact ⟨_, _, by rw [tokens], by simp, by simp⟩

theorem length_le_itemTokens (first : Bool) (items : List Tree) :
    items.length ≤ (itemTokens first items).length := by
  induction items generalizing first with
  | nil => exact Nat.le_refl _
  | cons item items ih =>
      obtain ⟨token, tail, opens, -⟩ := item.tokens_open
      have further := ih false
      simp only [itemTokens, opens, List.length_append, List.length_cons]
      omega

theorem length_le_memberTokens (first : Bool) (members : List (Except Fault String × Tree)) :
    members.length ≤ (memberTokens first members).length := by
  induction members generalizing first with
  | nil => exact Nat.le_refl _
  | cons member members ih =>
      obtain ⟨key, value⟩ := member
      have further := ih false
      simp only [memberTokens, fieldTokens, List.length_append, List.length_cons]
      omega

theorem length_tokens_pos (tree : Tree) : 0 < tree.tokens.length := by
  obtain ⟨token, tail, opens, -⟩ := tree.tokens_open
  rw [opens]
  exact Nat.succ_pos _

/-! ## One tree -/

mutual

/-- **Tokens are those of one tree at most**, and it is known where it ends. -/
theorem tokens_append_inj (tree other : Tree) {rest behind : List Token}
    (same : tree.tokens ++ rest = other.tokens ++ behind) : tree = other ∧ rest = behind := by
  match tree with
  | .null =>
      cases other with
      | null => simpa [tokens] using same
      | _ => simp [tokens] at same
  | .bool value =>
      cases other with
      | bool another => simpa [tokens] using same
      | _ => simp [tokens] at same
  | .text strict =>
      cases other with
      | text another => simpa [tokens] using same
      | _ => simp [tokens] at same
  | .number strict =>
      cases other with
      | number another => simpa [tokens] using same
      | _ => simp [tokens] at same
  | .array items =>
      cases other with
      | array others =>
          have inside := itemTokens_append_inj true items others (by simpa [tokens] using same)
          simpa using inside
      | _ => simp [tokens] at same
  | .object members =>
      cases other with
      | object others =>
          have inside := memberTokens_append_inj true members others (by simpa [tokens] using same)
          simpa using inside
      | _ => simp [tokens] at same

theorem itemTokens_append_inj (first : Bool) (items others : List Tree) {rest behind : List Token}
    (same : itemTokens first items ++ .mark .closeBracket :: rest =
      itemTokens first others ++ .mark .closeBracket :: behind) :
    items = others ∧ rest = behind := by
  match items, others with
  | [], [] => simpa [itemTokens] using same
  | [], other :: further =>
      obtain ⟨token, tail, opens, apart, -⟩ := other.tokens_open
      cases first <;> simp [itemTokens, separator, opens, apart.symm] at same
  | item :: rest, [] =>
      obtain ⟨token, tail, opens, apart, -⟩ := item.tokens_open
      cases first <;> simp [itemTokens, separator, opens, apart] at same
  | item :: rest, other :: further =>
      simp only [itemTokens, List.append_assoc, List.append_cancel_left_eq] at same
      obtain ⟨rfl, others⟩ := tokens_append_inj item other same
      obtain ⟨rfl, rfl⟩ := itemTokens_append_inj false rest further others
      exact ⟨rfl, rfl⟩

theorem memberTokens_append_inj (first : Bool) (members others : List (Except Fault String × Tree))
    {rest behind : List Token}
    (same : memberTokens first members ++ .mark .closeBrace :: rest =
      memberTokens first others ++ .mark .closeBrace :: behind) :
    members = others ∧ rest = behind := by
  match members, others with
  | [], [] => simpa [memberTokens] using same
  | [], (key, tree) :: further =>
      cases first <;> simp [memberTokens, fieldTokens, separator] at same
  | (key, tree) :: rest, [] =>
      cases first <;> simp [memberTokens, fieldTokens, separator] at same
  | (key, tree) :: rest, (other, another) :: further =>
      simp only [memberTokens, fieldTokens, List.append_assoc, List.append_cancel_left_eq,
        List.cons_append, List.cons.injEq, Token.text.injEq, true_and] at same
      obtain ⟨rfl, same⟩ := same
      obtain ⟨rfl, others⟩ := tokens_append_inj tree another same
      obtain ⟨rfl, rfl⟩ := memberTokens_append_inj false rest further others
      exact ⟨rfl, rfl⟩

end

theorem tokens_injective {tree other : Tree} (same : tree.tokens = other.tokens) :
    tree = other := by
  have whole : tree.tokens ++ [] = other.tokens ++ [] := by rw [same]
  exact (tokens_append_inj tree other whole).1

end Tree

/-! ## Passing over a tree -/

section Skipping

variable {opened outer : List Frame} {rest passed : List Token}

/-- Go on behind a value: stop if no bracket is open, and look for the next item otherwise. -/
def resume (opened : List Frame) (rest : List Token) : Except Fault (List Token) :=
  match opened with
  | [] => .ok rest
  | _ :: _ => skip opened .next rest

theorem skip_of_step {expect : Expect} {token : Token}
    (step : skipStep opened expect token = .ok (outer, .next)) :
    skip opened expect (token :: rest) = resume outer rest := by
  rw [skip, step]
  cases outer <;> rfl

theorem skip_of_step_ne {expect further : Expect} {token : Token}
    (goesOn : further ≠ .next) (step : skipStep opened expect token = .ok (outer, further)) :
    skip opened expect (token :: rest) = skip outer further rest := by
  rw [skip, step]
  cases further <;> first | exact absurd rfl goesOn | cases outer <;> rfl

/-- The mark that closes a bracket. -/
def Frame.closing : Frame → Mark
  | .list => .closeBracket
  | .object => .closeBrace

/-- What an item of a bracket begins with. -/
def Frame.item : Frame → Expect
  | .list => .value
  | .object => .key

variable {frame : Frame}

/-- The first item of a bracket is passed over like any other. -/
theorem skip_first_eq {token : Token} (opens : token ≠ .mark frame.closing) :
    skip (frame :: outer) .first (token :: rest) =
      skip (frame :: outer) frame.item (token :: rest) := by
  have same :
      skipStep (frame :: outer) .first token = skipStep (frame :: outer) frame.item token := by
    cases frame with
    | list =>
        unfold skipStep
        split <;> simp_all [Frame.closing, Frame.item]
    | object =>
        unfold skipStep
        split <;> simp_all [Frame.closing, Frame.item]
  rw [skip, skip, same]

mutual

/-- **A tree is passed over**, whatever brackets are open. -/
theorem skip_tokens (tree : Tree) (opened : List Frame) (rest : List Token) :
    skip opened .value (tree.tokens ++ rest) = resume opened rest := by
  match tree with
  | .null => exact skip_of_step rfl
  | .bool value => exact skip_of_step rfl
  | .text strict => exact skip_of_step rfl
  | .number strict => exact skip_of_step rfl
  | .array items =>
      rw [Tree.tokens, List.cons_append, List.append_assoc]
      exact (skip_of_step_ne (by simp) rfl).trans (skip_itemTokens items true opened rest)
  | .object members =>
      rw [Tree.tokens, List.cons_append, List.append_assoc]
      exact (skip_of_step_ne (by simp) rfl).trans (skip_memberTokens members true opened rest)

theorem skip_itemTokens (items : List Tree) (first : Bool) (opened : List Frame)
    (rest : List Token) :
    skip (.list :: opened) (if first then .first else .next)
        (Tree.itemTokens first items ++ (.mark .closeBracket :: rest)) = resume opened rest := by
  match items with
  | [] => cases first <;> exact skip_of_step rfl
  | item :: others =>
      obtain ⟨token, tail, opens, apart, -⟩ := item.tokens_open
      have value := skip_tokens item (.list :: opened)
        (Tree.itemTokens false others ++ (.mark .closeBracket :: rest))
      have further := skip_itemTokens others false opened rest
      rw [Tree.itemTokens, List.append_assoc, List.append_assoc]
      rw [opens, List.cons_append] at value ⊢
      refine Eq.trans ?_ (value.trans further)
      cases first with
      | true => exact skip_first_eq apart
      | false => exact skip_of_step_ne (by simp) rfl

theorem skip_memberTokens (members : List (Except Fault String × Tree)) (first : Bool)
    (opened : List Frame) (rest : List Token) :
    skip (.object :: opened) (if first then .first else .next)
        (Tree.memberTokens first members ++ (.mark .closeBrace :: rest)) = resume opened rest := by
  match members with
  | [] => cases first <;> exact skip_of_step rfl
  | member :: others =>
      have value := skip_fieldTokens member opened
        (Tree.memberTokens false others ++ (.mark .closeBrace :: rest))
      have further := skip_memberTokens others false opened rest
      rw [Tree.memberTokens, List.append_assoc, List.append_assoc]
      refine Eq.trans ?_ (value.trans further)
      cases first with
      | true =>
          obtain ⟨key, tree⟩ := member
          rw [Tree.fieldTokens, List.cons_append]
          exact skip_first_eq (by simp [Frame.closing])
      | false => exact skip_of_step_ne (by simp) rfl

theorem skip_fieldTokens (member : Except Fault String × Tree) (opened : List Frame)
    (rest : List Token) :
    skip (.object :: opened) .key (Tree.fieldTokens member ++ rest) =
      skip (.object :: opened) .next rest := by
  match member with
  | (key, value) =>
      have passed := skip_tokens value (.object :: opened) rest
      rw [Tree.fieldTokens, List.cons_append, List.cons_append]
      exact (skip_of_step_ne (by simp) rfl).trans
        ((skip_of_step_ne (by simp) rfl).trans passed)

end

/-! ## Nothing else is passed over -/

variable {tokens last : List Token} {expect : Expect} {token : Token}

theorem skip_cons_eq_ok (passes : skip opened expect (token :: rest) = .ok last) :
    ∃ outer further, skipStep opened expect token = .ok (outer, further) ∧
      (further = .next → resume outer rest = .ok last) ∧
      (further ≠ .next → skip outer further rest = .ok last) := by
  cases step : skipStep opened expect token with
  | error fault =>
      rw [skip, step] at passes
      cases passes
  | ok state =>
      obtain ⟨outer, further⟩ := state
      refine ⟨outer, further, rfl, ?_, ?_⟩
      · rintro rfl
        rwa [skip_of_step step] at passes
      · intro goesOn
        rwa [skip_of_step_ne goesOn step] at passes

/-- In a bracket either the end of it or another item is passed over next. -/
theorem skip_cases (first : Bool)
    (passes : skip (frame :: opened) (if first then .first else .next) tokens = .ok last) :
    (∃ passed, tokens = .mark frame.closing :: passed ∧ resume opened passed = .ok last) ∨
    ∃ others, tokens = separator first ++ others ∧
      skip (frame :: opened) frame.item others = .ok last := by
  cases tokens with
  | nil => cases frame <;> cases first <;> cases passes
  | cons token rest =>
      by_cases closes : token = .mark frame.closing
      · subst closes
        have step : skipStep (frame :: opened) (if first then .first else .next)
            (.mark frame.closing) = .ok (opened, .next) := by
          cases frame <;> cases first <;> rfl
        exact .inl ⟨rest, rfl, (skip_of_step step).symm.trans passes⟩
      · cases first with
        | true => exact .inr ⟨token :: rest, rfl, (skip_first_eq closes).symm.trans passes⟩
        | false =>
            by_cases comma : token = .mark .comma
            · subst comma
              have step : skipStep (frame :: opened) .next (.mark .comma) =
                  .ok (frame :: opened, frame.item) := by cases frame <;> rfl
              have goesOn : frame.item ≠ .next := by cases frame <;> simp [Frame.item]
              exact .inr ⟨rest, rfl, (skip_of_step_ne goesOn step).symm.trans passes⟩
            · have wrong : ∃ fault, skipStep (frame :: opened) .next token = .error fault := by
                cases frame with
                | list =>
                    refine ⟨.listCommaOrEnd, ?_⟩
                    unfold skipStep
                    split <;> simp_all [Frame.closing]
                | object =>
                    refine ⟨.objectCommaOrEnd, ?_⟩
                    unfold skipStep
                    split <;> simp_all [Frame.closing]
              obtain ⟨fault, wrong⟩ := wrong
              obtain ⟨_, _, step, -⟩ := skip_cons_eq_ok passes
              cases wrong.symm.trans step

/-- A key is passed over with the colon behind it. -/
theorem exists_key_of_skip
    (passes : skip (.object :: opened) .key tokens = .ok last) :
    ∃ key rest, tokens = .text key :: .mark .colon :: rest ∧
      skip (.object :: opened) .value rest = .ok last := by
  match tokens with
  | [] => cases passes
  | token :: rest =>
      obtain ⟨outer, further, step, -, goesOn⟩ := skip_cons_eq_ok passes
      have same : skipStep (.object :: opened) .key token = skipKey (.object :: opened) token := rfl
      rw [same] at step
      unfold skipKey at step
      split at step
      · rename_i key
        cases step
        have colon := goesOn (by simp)
        match rest with
        | [] => cases colon
        | token :: rest =>
            by_cases means : token = .mark .colon
            · subst means
              exact ⟨key, rest, rfl, (skip_of_step_ne (by simp) rfl).symm.trans colon⟩
            · have wrong : skipStep (.object :: opened) .colon token = .error .colonExpected := by
                unfold skipStep
                split <;> simp_all
              obtain ⟨_, _, step, -⟩ := skip_cons_eq_ok colon
              cases wrong.symm.trans step
      · cases step
      · cases step

mutual

/-- **What is passed over is a tree.** -/
theorem exists_tree_of_skip {opened : List Frame} {tokens last : List Token}
    (passes : skip opened .value tokens = .ok last) :
    ∃ tree passed, tokens = Tree.tokens tree ++ passed ∧ resume opened passed = .ok last := by
  match tokens with
  | [] => cases passes
  | token :: rest =>
      obtain ⟨outer, further, step, ends, goesOn⟩ := skip_cons_eq_ok passes
      have same : skipStep opened .value token = skipValue opened token := by
        cases opened <;> rfl
      rw [same] at step
      cases token with
      | null => cases step; exact ⟨.null, rest, rfl, ends rfl⟩
      | bool value => cases step; exact ⟨.bool value, rest, rfl, ends rfl⟩
      | text strict => cases step; exact ⟨.text strict, rest, rfl, ends rfl⟩
      | number strict => cases step; exact ⟨.number strict, rest, rfl, ends rfl⟩
      | broken isText strict lenient => cases step
      | mark mark =>
          cases mark with
          | openBracket =>
              cases step
              obtain ⟨items, passed, shape, done⟩ := exists_items_of_skip true (goesOn (by simp))
              refine ⟨.array items, passed, ?_, done⟩
              rw [Tree.tokens, shape]
              simp
          | openBrace =>
              cases step
              obtain ⟨members, passed, shape, done⟩ :=
                exists_members_of_skip true (goesOn (by simp))
              refine ⟨.object members, passed, ?_, done⟩
              rw [Tree.tokens, shape]
              simp
          | closeBracket => cases step
          | closeBrace => cases step
          | comma => cases step
          | colon => cases step
  termination_by 2 * tokens.length
  decreasing_by all_goals simp only [List.length_cons] ; omega

theorem exists_items_of_skip (first : Bool) {opened : List Frame} {tokens last : List Token}
    (passes : skip (.list :: opened) (if first then .first else .next) tokens = .ok last) :
    ∃ items passed, tokens = Tree.itemTokens first items ++ .mark .closeBracket :: passed ∧
      resume opened passed = .ok last := by
  rcases skip_cases first passes with ⟨passed, shape, done⟩ | ⟨others, shape, item⟩
  · exact ⟨[], passed, shape, done⟩
  · obtain ⟨tree, behind, front, goesOn⟩ := exists_tree_of_skip item
    have shorter : behind.length < tokens.length := by
      have some_ := tree.length_tokens_pos
      rw [shape, front, List.length_append, List.length_append]
      omega
    obtain ⟨items, passed, others, done⟩ := exists_items_of_skip false goesOn
    refine ⟨tree :: items, passed, ?_, done⟩
    rw [shape, front, others]
    simp only [Tree.itemTokens, List.append_assoc]
  termination_by 2 * tokens.length + 1
  decreasing_by
    · rw [shape, List.length_append]; omega
    · omega

theorem exists_members_of_skip (first : Bool) {opened : List Frame} {tokens last : List Token}
    (passes : skip (.object :: opened) (if first then .first else .next) tokens = .ok last) :
    ∃ members passed, tokens = Tree.memberTokens first members ++ .mark .closeBrace :: passed ∧
      resume opened passed = .ok last := by
  rcases skip_cases first passes with ⟨passed, shape, done⟩ | ⟨others, shape, member⟩
  · exact ⟨[], passed, shape, done⟩
  · obtain ⟨key, rest, field, value⟩ := exists_key_of_skip member
    obtain ⟨tree, behind, front, goesOn⟩ := exists_tree_of_skip value
    have shorter : behind.length < tokens.length ∧ rest.length < tokens.length := by
      rw [shape, field, front]
      simp only [List.length_append, List.length_cons]
      omega
    obtain ⟨members, passed, others, done⟩ := exists_members_of_skip false goesOn
    refine ⟨(key, tree) :: members, passed, ?_, done⟩
    rw [shape, field, front, others]
    simp only [Tree.memberTokens, Tree.fieldTokens, List.append_assoc, List.cons_append]
  termination_by 2 * tokens.length + 1

end

/-- **A value is passed over exactly when it is a tree**, up to where the tree ends. -/
theorem skip_eq_ok_iff :
    skip [] .value tokens = .ok rest ↔ ∃ tree : Tree, tokens = tree.tokens ++ rest := by
  constructor
  · intro passes
    obtain ⟨tree, passed, rfl, done⟩ := exists_tree_of_skip passes
    cases done
    exact ⟨tree, rfl⟩
  · rintro ⟨tree, rfl⟩
    exact skip_tokens tree [] rest

end Skipping

end ProgramModel.Json
