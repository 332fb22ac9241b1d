/-
# ProgramModel.Proofs.Segments -- the texts that spell a tree

A text spells a tree when it is put together from texts that spell the parts: an array from
segments with commas between them, in its brackets, and an object from segments that have a key, a
colon and a value.  Each segment brings its own blanks.  Hence segments may change places, or stand
there again, and what is spelled then is the tree with its parts in those places
(`spells_array_iff`, `spells_object_iff`).

A text spells a tree exactly if it is cut into the tokens of the tree (`spells_iff`): the segments
are found at the marks, and a mark inside a lexeme is none.
-/
import Mathlib.Data.List.Forall2
import ProgramModel.Proofs.Lexemes
import ProgramModel.Proofs.Trees

namespace ProgramModel.Json

set_option autoImplicit false

open Text (Glyph)

/-! ## Spelling a tree -/

/-- One token among blanks. -/
def Alone (token : Token) (text : List Glyph) : Prop :=
  ∃ before lexeme after, text = before ++ (lexeme ++ after) ∧ Blank before ∧
    Lexeme token lexeme ∧ Blank after

/-- Two marks among blanks, and what stands between them. -/
def Enclosed (opening closing : Mark) (inside text : List Glyph) : Prop :=
  ∃ before after, text = before ++ .char opening.char :: (inside ++ .char closing.char :: after) ∧
    Blank before ∧ Blank after

/-- The comma before a segment that is not the first. -/
def comma (first : Bool) : List Glyph := if first then [] else [.char ',']

namespace Tree

mutual

/-- The text spells the tree. -/
def Spells : Tree → List Glyph → Prop
  | .null, glyphs => Alone .null glyphs
  | .bool value, glyphs => Alone (.bool value) glyphs
  | .text strict, glyphs => Alone (.text strict) glyphs
  | .number strict, glyphs => Alone (.number strict) glyphs
  | .array items, glyphs =>
      ∃ inside, Enclosed .openBracket .closeBracket inside glyphs ∧ SpellsItems true items inside
  | .object members, glyphs =>
      ∃ inside, Enclosed .openBrace .closeBrace inside glyphs ∧ SpellsMembers true members inside

/-- The text is one segment for each item, or blank. -/
def SpellsItems (first : Bool) : List Tree → List Glyph → Prop
  | [], glyphs => if first then Blank glyphs else glyphs = []
  | item :: rest, glyphs => ∃ front back, glyphs = comma first ++ (front ++ back) ∧
      item.Spells front ∧ SpellsItems false rest back

/-- The text is one segment for each member, or blank. -/
def SpellsMembers (first : Bool) : List (Except Fault String × Tree) → List Glyph → Prop
  | [], glyphs => if first then Blank glyphs else glyphs = []
  | member :: rest, glyphs => ∃ front back, glyphs = comma first ++ (front ++ back) ∧
      SpellsField member front ∧ SpellsMembers false rest back

/-- The text is a key, a colon and a value. -/
def SpellsField : Except Fault String × Tree → List Glyph → Prop
  | (key, value), glyphs => ∃ front back, glyphs = front ++ .char ':' :: back ∧
      Alone (.text key) front ∧ value.Spells back

end

end Tree

/-! ## What is spelled is cut into the tokens -/

section Cutting

variable {text rest inside : List Glyph} {token : Token} {list : List Token}

theorem Alone.cuts (alone : Alone token text) (cuts : Cuts rest list) (ends : Ends rest) :
    Cuts (text ++ rest) (token :: list) := by
  obtain ⟨before, lexeme, after, rfl, front, found, back⟩ := alone
  rw [List.append_assoc, List.append_assoc]
  exact ((cuts.blanks back).lexeme found (ends.blanks back)).blanks front

theorem mark?_char (mark : Mark) : mark? mark.char = some mark := by cases mark <;> rfl

theorem char_mem_delimiters (mark : Mark) : mark.char ∈ delimiters := by cases mark <;> decide

theorem isSpace_char (mark : Mark) : isSpace (.char mark.char) = false := by cases mark <;> rfl

theorem Cuts.character (cuts : Cuts rest list) (mark : Mark) :
    Cuts (.char mark.char :: rest) (.mark mark :: list) :=
  cuts.mark (mark?_char mark) (isSpace_char mark)

theorem Enclosed.cuts {opening closing : Mark} {between : List Token}
    (enclosed : Enclosed opening closing inside text) (cuts : Cuts rest list)
    (within : ∀ {rest list}, Cuts rest list → Ends rest → Cuts (inside ++ rest) (between ++ list)) :
    Cuts (text ++ rest) (.mark opening :: (between ++ [.mark closing] ++ list)) := by
  obtain ⟨before, after, rfl, front, back⟩ := enclosed
  have closed := (cuts.blanks back).character closing
  have whole := (within closed (.cons (char_mem_delimiters closing) _)).character opening
  simpa using whole.blanks front

theorem Cuts.comma (cuts : Cuts rest list) (first : Bool) :
    Cuts (comma first ++ rest) (separator first ++ list) := by
  cases first with
  | true => exact cuts
  | false => exact cuts.character .comma

theorem Ends.comma (rest : List Glyph) : Ends (comma false ++ rest) :=
  .cons (by decide) rest

end Cutting

namespace Tree

section Cutting

variable {glyphs rest : List Glyph} {list : List Token}

theorem SpellsItems.ends {items : List Tree} (spells : SpellsItems false items glyphs)
    (ends : Ends rest) : Ends (glyphs ++ rest) := by
  cases items with
  | nil =>
      obtain rfl : glyphs = [] := spells
      exact ends
  | cons item items =>
      obtain ⟨front, back, rfl, -⟩ := spells
      rw [List.append_assoc]
      exact .comma _

theorem SpellsMembers.ends {members : List (Except Fault String × Tree)}
    (spells : SpellsMembers false members glyphs) (ends : Ends rest) : Ends (glyphs ++ rest) := by
  cases members with
  | nil =>
      obtain rfl : glyphs = [] := spells
      exact ends
  | cons member members =>
      obtain ⟨front, back, rfl, -⟩ := spells
      rw [List.append_assoc]
      exact .comma _

mutual

/-- **What spells a tree is cut into the tokens of it**, whatever ends it. -/
theorem Spells.cuts : (tree : Tree) → {glyphs rest : List Glyph} → {list : List Token} →
    tree.Spells glyphs → Cuts rest list → Ends rest → Cuts (glyphs ++ rest) (tree.tokens ++ list)
  | .null, _, _, _, alone, cuts, ends => Alone.cuts alone cuts ends
  | .bool _, _, _, _, alone, cuts, ends => Alone.cuts alone cuts ends
  | .text _, _, _, _, alone, cuts, ends => Alone.cuts alone cuts ends
  | .number _, _, _, _, alone, cuts, ends => Alone.cuts alone cuts ends
  | .array items, _, _, _, ⟨_, enclosed, inside⟩, cuts, _ =>
      enclosed.cuts cuts (SpellsItems.cuts true items inside)
  | .object members, _, _, _, ⟨_, enclosed, inside⟩, cuts, _ =>
      enclosed.cuts cuts (SpellsMembers.cuts true members inside)

theorem SpellsItems.cuts (first : Bool) : (items : List Tree) → {glyphs rest : List Glyph} →
    {list : List Token} → SpellsItems first items glyphs → Cuts rest list → Ends rest →
    Cuts (glyphs ++ rest) (itemTokens first items ++ list)
  | [], glyphs, rest, list, spells, cuts, ends => by
      cases first with
      | true => exact cuts.blanks spells
      | false =>
          obtain rfl : glyphs = [] := spells
          exact cuts
  | item :: items, _, rest, list, ⟨front, back, rfl, segment, others⟩, cuts, ends => by
      have behind := SpellsItems.cuts false items others cuts ends
      have one := Spells.cuts item segment behind (others.ends ends)
      simpa [itemTokens] using one.comma first

theorem SpellsMembers.cuts (first : Bool) : (members : List (Except Fault String × Tree)) →
    {glyphs rest : List Glyph} → {list : List Token} → SpellsMembers first members glyphs →
    Cuts rest list → Ends rest → Cuts (glyphs ++ rest) (memberTokens first members ++ list)
  | [], glyphs, rest, list, spells, cuts, ends => by
      cases first with
      | true => exact cuts.blanks spells
      | false =>
          obtain rfl : glyphs = [] := spells
          exact cuts
  | member :: members, _, rest, list, ⟨front, back, rfl, segment, others⟩, cuts, ends => by
      have behind := SpellsMembers.cuts false members others cuts ends
      have one := SpellsField.cuts member segment behind (others.ends ends)
      simpa [memberTokens] using one.comma first

theorem SpellsField.cuts : (member : Except Fault String × Tree) → {glyphs rest : List Glyph} →
    {list : List Token} → SpellsField member glyphs → Cuts rest list → Ends rest →
    Cuts (glyphs ++ rest) (fieldTokens member ++ list)
  | (key, value), _, rest, list, ⟨front, back, rfl, named, held⟩, cuts, ends => by
      have valued := (Spells.cuts value held cuts ends).character .colon
      have whole := named.cuts valued (.cons (by decide) _)
      simpa [fieldTokens, Mark.char] using whole

end

end Cutting

/-! ## What is cut into the tokens spells the tree -/

section Finding

variable {glyphs blanks : List Glyph} {list : List Token}

theorem alone_append_blank {token : Token} (alone : Alone token glyphs) (blank : Blank blanks) :
    Alone token (glyphs ++ blanks) := by
  obtain ⟨before, lexeme, after, rfl, front, found, back⟩ := alone
  exact ⟨before, lexeme, after ++ blanks, by simp, front, found, back.append blank⟩

theorem enclosed_append_blank {opening closing : Mark} {inside : List Glyph}
    (enclosed : Enclosed opening closing inside glyphs) (blank : Blank blanks) :
    Enclosed opening closing inside (glyphs ++ blanks) := by
  obtain ⟨before, after, rfl, front, back⟩ := enclosed
  exact ⟨before, after ++ blanks, by simp, front, back.append blank⟩

theorem Spells.append_blank {tree : Tree} (spells : tree.Spells glyphs) (blank : Blank blanks) :
    tree.Spells (glyphs ++ blanks) := by
  match tree, spells with
  | .null, alone => exact alone_append_blank alone blank
  | .bool _, alone => exact alone_append_blank alone blank
  | .text _, alone => exact alone_append_blank alone blank
  | .number _, alone => exact alone_append_blank alone blank
  | .array _, ⟨inside, enclosed, within⟩ =>
      exact ⟨inside, enclosed_append_blank enclosed blank, within⟩
  | .object _, ⟨inside, enclosed, within⟩ =>
      exact ⟨inside, enclosed_append_blank enclosed blank, within⟩

/-- A member is a segment together with the blanks behind it. -/
theorem SpellsField.append_blank {member : Except Fault String × Tree}
    (spells : SpellsField member glyphs) (blank : Blank blanks) :
    SpellsField member (glyphs ++ blanks) := by
  obtain ⟨key, value⟩ := member
  obtain ⟨front, back, rfl, named, held⟩ := spells
  exact ⟨front, back ++ blanks, by simp, named, held.append_blank blank⟩

theorem exists_alone {token : Token} (yields : Yields glyphs (token :: list))
    (full : token.IsWhole) :
    ∃ front back, glyphs = front ++ back ∧ Alone token front ∧ Yields back list := by
  obtain ⟨before, lexeme, after, rfl, blank, found, others⟩ := yields.exists_lexeme full
  exact ⟨before ++ lexeme, after, by simp, ⟨before, lexeme, [], by simp, blank, found,
    by simp [Blank]⟩, others⟩

/-- Behind what is not the first segment, and behind the blanks there, stands a comma. -/
theorem exists_comma (first : Bool) (yields : Yields glyphs (separator first ++ list)) :
    ∃ blanks after, glyphs = blanks ++ (comma first ++ after) ∧ Blank blanks ∧
      (first = true → blanks = []) ∧ Yields after list := by
  cases first with
  | true => exact ⟨[], glyphs, rfl, by simp [Blank], fun _ => rfl, yields⟩
  | false =>
      obtain ⟨blanks, after, rfl, blank, others⟩ := Yields.exists_mark yields
      exact ⟨blanks, after, rfl, blank, by simp, others⟩

/-- What is left before the end of an array or object is blank. -/
theorem exists_end (first : Bool) {closing : Mark}
    (yields : Yields glyphs (.mark closing :: list)) :
    ∃ blanks inside after, glyphs = blanks ++ (inside ++ .char closing.char :: after) ∧
      Blank blanks ∧ (first = true → blanks = []) ∧
      (if first then Blank inside else inside = []) ∧ Yields after list := by
  obtain ⟨blanks, after, rfl, blank, others⟩ := yields.exists_mark
  cases first with
  | true => exact ⟨[], blanks, after, rfl, by simp [Blank], fun _ => rfl, blank, others⟩
  | false => exact ⟨blanks, [], after, rfl, blank, by simp, rfl, others⟩

mutual

/-- **The tokens of a tree are cut from a text that spells it.** -/
theorem exists_spelling : (tree : Tree) → {glyphs : List Glyph} → {list : List Token} →
    Yields glyphs (tree.tokens ++ list) →
    ∃ front back, glyphs = front ++ back ∧ tree.Spells front ∧ Yields back list
  | .null, _, _, yields => exists_alone yields trivial
  | .bool _, _, _, yields => exists_alone yields trivial
  | .text _, _, _, yields => exists_alone yields trivial
  | .number _, _, _, yields => exists_alone yields trivial
  | .array items, glyphs, list, yields => by
      rw [tokens, List.cons_append, List.append_assoc] at yields
      obtain ⟨before, behind, rfl, blank, within⟩ := yields.exists_mark
      obtain ⟨blanks, inside, after, rfl, -, none_, spelled, others⟩ :=
        exists_segments true items within
      obtain rfl := none_ rfl
      exact ⟨before ++ .char '[' :: (inside ++ [.char ']']), after, by simp [Mark.char],
        ⟨inside, ⟨before, [], rfl, blank, by simp [Blank]⟩, spelled⟩, others⟩
  | .object members, glyphs, list, yields => by
      rw [tokens, List.cons_append, List.append_assoc] at yields
      obtain ⟨before, behind, rfl, blank, within⟩ := yields.exists_mark
      obtain ⟨blanks, inside, after, rfl, -, none_, spelled, others⟩ :=
        exists_memberSegments true members within
      obtain rfl := none_ rfl
      exact ⟨before ++ .char '\x7b' :: (inside ++ [.char '\x7d']), after, by simp [Mark.char],
        ⟨inside, ⟨before, [], rfl, blank, by simp [Blank]⟩, spelled⟩, others⟩

/-- The tokens of items are cut from segments.  Blanks behind a segment belong to it. -/
theorem exists_segments (first : Bool) : (items : List Tree) → {glyphs : List Glyph} →
    {list : List Token} →
    Yields glyphs (itemTokens first items ++ .mark .closeBracket :: list) →
    ∃ blanks inside after, glyphs = blanks ++ (inside ++ .char ']' :: after) ∧ Blank blanks ∧
      (first = true → blanks = []) ∧ SpellsItems first items inside ∧ Yields after list
  | [], _, _, yields => exists_end first yields
  | item :: items, glyphs, list, yields => by
      rw [itemTokens, List.append_assoc, List.append_assoc] at yields
      obtain ⟨blanks, behind, rfl, blank, none_, one⟩ := exists_comma first yields
      obtain ⟨front, back, rfl, spelled, others⟩ := exists_spelling item one
      obtain ⟨gap, inside, after, rfl, between, -, segments, last⟩ :=
        exists_segments false items others
      exact ⟨blanks, comma first ++ ((front ++ gap) ++ inside), after, by simp, blank, none_,
        ⟨front ++ gap, inside, rfl, spelled.append_blank between, segments⟩, last⟩

theorem exists_memberSegments (first : Bool) : (members : List (Except Fault String × Tree)) →
    {glyphs : List Glyph} → {list : List Token} →
    Yields glyphs (memberTokens first members ++ .mark .closeBrace :: list) →
    ∃ blanks inside after, glyphs = blanks ++ (inside ++ .char '\x7d' :: after) ∧ Blank blanks ∧
      (first = true → blanks = []) ∧ SpellsMembers first members inside ∧ Yields after list
  | [], _, _, yields => exists_end first yields
  | member :: members, glyphs, list, yields => by
      rw [memberTokens, List.append_assoc, List.append_assoc] at yields
      obtain ⟨blanks, behind, rfl, blank, none_, one⟩ := exists_comma first yields
      obtain ⟨front, back, rfl, spelled, others⟩ := exists_field member one
      obtain ⟨gap, inside, after, rfl, between, -, segments, last⟩ :=
        exists_memberSegments false members others
      exact ⟨blanks, comma first ++ ((front ++ gap) ++ inside), after, by simp, blank, none_,
        ⟨front ++ gap, inside, rfl, spelled.append_blank between, segments⟩, last⟩

theorem exists_field : (member : Except Fault String × Tree) → {glyphs : List Glyph} →
    {list : List Token} → Yields glyphs (fieldTokens member ++ list) →
    ∃ front back, glyphs = front ++ back ∧ SpellsField member front ∧ Yields back list
  | (key, value), glyphs, list, yields => by
      obtain ⟨named, behind, rfl, alone, colon⟩ := exists_alone yields trivial
      obtain ⟨gap, rest, rfl, blank, held⟩ := colon.exists_mark
      obtain ⟨front, back, rfl, spelled, others⟩ := exists_spelling value held
      exact ⟨(named ++ gap) ++ .char ':' :: front, back, by simp [Mark.char],
        ⟨named ++ gap, front, rfl, alone_append_blank alone blank, spelled⟩, others⟩

end

end Finding

/-- **A text spells a tree if it is cut into the tokens of the tree**, and only then. -/
theorem spells_iff {tree : Tree} {glyphs : List Glyph} :
    tree.Spells glyphs ↔ Json.tokens glyphs = tree.tokens := by
  constructor
  · intro spells
    have cuts := spells.cuts tree .nil .nil
    rw [List.append_nil, List.append_nil] at cuts
    exact cuts.tokens_eq
  · intro cut
    have yields := yields_tokens glyphs
    rw [cut, ← List.append_nil tree.tokens] at yields
    obtain ⟨front, back, rfl, spelled, others⟩ := exists_spelling tree yields
    exact spelled.append_blank others.blank

/-- A text spells one tree at most. -/
theorem Spells.unique {tree other : Tree} {glyphs : List Glyph} (spells : tree.Spells glyphs)
    (also : other.Spells glyphs) : tree = other :=
  tokens_injective ((spells_iff.mp spells).symm.trans (spells_iff.mp also))

/-! ## Segments -/

section Segments

variable {α : Type} {spells : α → List Glyph → Prop} {items : List α} {glyphs : List Glyph}

/-- One segment for each item, with a comma before each but the first; or blank. -/
def Joined (spells : α → List Glyph → Prop) (first : Bool) : List α → List Glyph → Prop
  | [], glyphs => if first then Blank glyphs else glyphs = []
  | item :: rest, glyphs => ∃ front back, glyphs = comma first ++ (front ++ back) ∧
      spells item front ∧ Joined spells false rest back

theorem spellsItems_iff_joined {first : Bool} {items : List Tree} :
    SpellsItems first items glyphs ↔ Joined Spells first items glyphs := by
  induction items generalizing first glyphs with
  | nil => exact Iff.rfl
  | cons item items ih => simp only [SpellsItems, Joined, ih]

theorem spellsMembers_iff_joined {first : Bool} {members : List (Except Fault String × Tree)} :
    SpellsMembers first members glyphs ↔ Joined SpellsField first members glyphs := by
  induction members generalizing first glyphs with
  | nil => exact Iff.rfl
  | cons member members ih => simp only [SpellsMembers, Joined, ih]

theorem joined_false_iff :
    Joined spells false items glyphs ↔ ∃ segments, List.Forall₂ spells items segments ∧
      glyphs = segments.flatMap (.char ',' :: ·) := by
  induction items generalizing glyphs with
  | nil =>
      constructor
      · rintro rfl
        exact ⟨[], .nil, rfl⟩
      · rintro ⟨segments, each, rfl⟩
        cases each
        rfl
  | cons item items ih =>
      constructor
      · rintro ⟨front, back, rfl, one, others⟩
        obtain ⟨segments, each, rfl⟩ := ih.mp others
        exact ⟨front :: segments, .cons one each, by simp [comma]⟩
      · rintro ⟨_, each, rfl⟩
        cases each with
        | @cons _ front _ segments one each =>
            exact ⟨front, _, by simp [comma], one, ih.mpr ⟨segments, each, rfl⟩⟩

theorem intercalate_cons (front : List Glyph) (segments : List (List Glyph)) :
    [Glyph.char ','].intercalate (front :: segments) =
      front ++ segments.flatMap (.char ',' :: ·) := by
  induction segments generalizing front with
  | nil => simp
  | cons next segments ih => simp [List.intercalate_cons_cons, ih]

theorem joined_true_iff :
    Joined spells true items glyphs ↔ (items = [] ∧ Blank glyphs) ∨
      (items ≠ [] ∧ ∃ segments, List.Forall₂ spells items segments ∧
        glyphs = [Glyph.char ','].intercalate segments) := by
  cases items with
  | nil => simp [Joined]
  | cons item items =>
      constructor
      · rintro ⟨front, back, rfl, one, others⟩
        obtain ⟨segments, each, rfl⟩ := joined_false_iff.mp others
        exact .inr ⟨by simp, front :: segments, .cons one each, (intercalate_cons ..).symm⟩
      · rintro (⟨none_, -⟩ | ⟨-, _, each, rfl⟩)
        · cases none_
        · cases each with
          | @cons _ front _ segments one each =>
              exact ⟨front, _, intercalate_cons front segments, one,
                joined_false_iff.mpr ⟨segments, each, rfl⟩⟩

end Segments

/-- **What spells an array** is one segment for each item, joined by commas, in brackets. -/
theorem spells_array_iff {items : List Tree} {glyphs : List Glyph} :
    (array items).Spells glyphs ↔ ∃ inside, Enclosed .openBracket .closeBracket inside glyphs ∧
      ((items = [] ∧ Blank inside) ∨ (items ≠ [] ∧ ∃ segments,
        List.Forall₂ Spells items segments ∧ inside = [Glyph.char ','].intercalate segments)) := by
  simp only [Spells, spellsItems_iff_joined, joined_true_iff]

/-- **What spells an object** is one segment for each member, joined by commas, in braces. -/
theorem spells_object_iff {members : List (Except Fault String × Tree)} {glyphs : List Glyph} :
    (object members).Spells glyphs ↔ ∃ inside, Enclosed .openBrace .closeBrace inside glyphs ∧
      ((members = [] ∧ Blank inside) ∨ (members ≠ [] ∧ ∃ segments,
        List.Forall₂ SpellsField members segments ∧
          inside = [Glyph.char ','].intercalate segments)) := by
  simp only [Spells, spellsMembers_iff_joined, joined_true_iff]

end Tree

end ProgramModel.Json
