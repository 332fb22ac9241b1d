/-
# ProgramModel.Proofs.Spelling -- the tokens that a written JSON value is cut into

A value has one spelling as tokens, whatever its layout: `spelling` lists them without
looking at characters.  A text `Cuts` into tokens when it is cut into them with any fuel
that is enough for its length, so that a text can be followed from its front: a blank
changes nothing, and a token at the front is scanned and the rest goes on by itself.

An escaped character scans as the character (`scanUnit_escape`), so a written text scans
as its value (`scanText_escaped`).  From there the pieces of a value cut into its spelling,
piece by piece (`cuts_pieces`).  Values without numbers are enough here: how a number ends
depends on what follows it, and nothing that is exchanged holds one.
-/
import ProgramModel.Json.Basic
import ProgramModel.Json.Token

namespace ProgramModel.Json

set_option autoImplicit false

open Text (Glyph)

/-! ## Spellings -/

/-- The comma before an item that is not the first. -/
def separator (first : Bool) : List Token := if first then [] else [.mark .comma]

mutual

/-- The tokens of a value. -/
def spelling : Json → List Token
  | .null => [.null]
  | .bool value => [.bool value]
  | .number value => [.number (.ok (.integer value))]
  | .text value => [.text (.ok value)]
  | .array items => .mark .openBracket :: (itemSpelling true items ++ [.mark .closeBracket])
  | .object members => .mark .openBrace :: (memberSpelling true members ++ [.mark .closeBrace])

def itemSpelling (first : Bool) : List Json → List Token
  | [] => []
  | item :: rest => separator first ++ (spelling item ++ itemSpelling false rest)

def memberSpelling (first : Bool) : List (String × Json) → List Token
  | [] => []
  | member :: rest => separator first ++ (fieldSpelling member ++ memberSpelling false rest)

def fieldSpelling : String × Json → List Token
  | (key, value) => .text (.ok key) :: .mark .colon :: spelling value

end

mutual

/-- Whether no number occurs in a value. -/
def Numberless : Json → Prop
  | .number _ => False
  | .array items => NumberlessItems items
  | .object members => NumberlessMembers members
  | _ => True

def NumberlessItems : List Json → Prop
  | [] => True
  | item :: rest => item.Numberless ∧ NumberlessItems rest

def NumberlessMembers : List (String × Json) → Prop
  | [] => True
  | member :: rest => NumberlessMember member ∧ NumberlessMembers rest

def NumberlessMember : String × Json → Prop
  | (_, value) => value.Numberless

end

theorem numberlessItems_of_forall {items : List Json} (each : ∀ item ∈ items, item.Numberless) :
    NumberlessItems items := by
  induction items with
  | nil => trivial
  | cons item items ih =>
      have others := ih fun other there => each other (List.mem_cons_of_mem _ there)
      exact ⟨each item List.mem_cons_self, others⟩

theorem numberlessMembers_of_forall {members : List (String × Json)}
    (each : ∀ member ∈ members, NumberlessMember member) : NumberlessMembers members := by
  induction members with
  | nil => trivial
  | cons member members ih =>
      have others := ih fun other there => each other (List.mem_cons_of_mem _ there)
      exact ⟨each member List.mem_cons_self, others⟩

/-! ## Cutting a text -/

/-- The text is cut into the tokens, with any fuel that is enough. -/
def Cuts (text : List Glyph) (list : List Token) : Prop :=
  ∀ fuel, text.length ≤ fuel → tokensWithin fuel text = list

theorem Cuts.tokens_eq {text : List Glyph} {list : List Token} (cuts : Cuts text list) :
    tokens text = list :=
  cuts text.length (Nat.le_refl _)

theorem Cuts.nil : Cuts [] [] := by
  intro fuel _
  cases fuel <;> rfl

variable {rest after : List Glyph} {list : List Token} {glyph : Glyph}

theorem Cuts.space (cuts : Cuts rest list) (blank : isSpace glyph = true) :
    Cuts (glyph :: rest) list := by
  intro fuel enough
  cases fuel with
  | zero => cases enough
  | succ fuel =>
      rw [tokensWithin, if_pos blank]
      exact cuts fuel (by simpa using enough)

/-- A token at the front is scanned, and the cutting goes on behind it. -/
theorem Cuts.token {front : Token} (cuts : Cuts after list) (solid : isSpace glyph = false)
    (scans : scanToken glyph rest = (front, after)) (shorter : after.length ≤ rest.length) :
    Cuts (glyph :: rest) (front :: list) := by
  intro fuel enough
  cases fuel with
  | zero => cases enough
  | succ fuel =>
      have fits : after.length ≤ fuel := by
        rw [List.length_cons] at enough
        omega
      rw [tokensWithin, if_neg (by simp [solid]), scans]
      exact congrArg (front :: ·) (cuts fuel fits)

theorem Cuts.spaces {blanks : List Char} (cuts : Cuts rest list)
    (blank : ∀ c ∈ blanks, isSpace (.char c) = true) : Cuts (blanks.map .char ++ rest) list := by
  induction blanks with
  | nil => exact cuts
  | cons c blanks ih =>
      have others := ih fun d there => blank d (List.mem_cons_of_mem _ there)
      exact others.space (blank c List.mem_cons_self)

theorem Cuts.mark {c : Char} {mark : Mark} (cuts : Cuts rest list) (means : mark? c = some mark)
    (solid : isSpace (.char c) = false) : Cuts (.char c :: rest) (.mark mark :: list) := by
  refine cuts.token solid ?_ (Nat.le_refl _)
  simp only [scanToken, means]

/-! ## Texts -/

theorem hexValue?_hexDigit : ∀ value < 16, hexValue? (.char (hexDigit value)) = some value := by
  decide

/-- A control character that is written by its code is read as such. -/
theorem scanUnit_code {c : Char} (control : c.toNat < 0x20) (rest : List Glyph) :
    scanUnit (['\\', 'u', '0', '0', hexDigit (c.toNat / 16), hexDigit (c.toNat % 16)].map .char ++
      rest) = (.char c, rest) := by
  have high := hexValue?_hexDigit (c.toNat / 16) (by omega)
  have low := hexValue?_hexDigit (c.toNat % 16) (by omega)
  have zero : hexValue? (.char '0') = some 0 := by decide
  have whole : ((0 * 16 + 0) * 16 + c.toNat / 16) * 16 + c.toNat % 16 = c.toNat := by omega
  have leading : isLeading c.toNat = false := by
    simp only [isLeading, Bool.and_eq_false_iff, decide_eq_false_iff_not]
    omega
  have trailing : isTrailing c.toNat = false := by
    simp only [isTrailing, Bool.and_eq_false_iff, decide_eq_false_iff_not]
    omega
  simp only [List.map_cons, List.map_nil, List.cons_append, List.nil_append, scanUnit, scanEscape,
    hexEscape, zero, high, low, whole, leading, trailing, Char.ofNat_toNat, Bool.or_self,
    Bool.false_eq_true, if_false]

/-- **An escaped character scans as the character.** -/
theorem scanUnit_escape (c : Char) (rest : List Glyph) :
    scanUnit ((escape c).map .char ++ rest) = (.char c, rest) := by
  unfold escape
  split
  case h_8 noQuote noBackslash _ _ _ _ _ =>
    by_cases control : c.toNat < 0x20
    · rw [if_pos control]
      exact scanUnit_code control rest
    · rw [if_neg control, List.map_singleton, List.singleton_append, scanUnit]
      · rw [if_neg control]
      · exact noQuote
      · exact noBackslash
  all_goals rfl

theorem scanText_escaped (value : List Char) (fuel : Nat) (enough : value.length < fuel)
    (read : List Char) (rest : List Glyph) :
    scanText fuel (.ok read) false ((value.flatMap escape).map .char ++ .char '"' :: rest) =
      (.text (.ok (String.ofList (read.reverse ++ value))), rest) := by
  induction value generalizing fuel read with
  | nil =>
      obtain ⟨fuel, rfl⟩ := Nat.exists_eq_add_one_of_ne_zero (Nat.ne_of_gt enough)
      rw [List.append_nil]
      rfl
  | cons c value ih =>
      have some_ : fuel ≠ 0 := Nat.ne_of_gt (Nat.zero_lt_of_lt enough)
      obtain ⟨fuel, rfl⟩ := Nat.exists_eq_add_one_of_ne_zero some_
      have unit := scanUnit_escape c ((value.flatMap escape).map .char ++ .char '"' :: rest)
      have further := ih fuel (by simpa using enough) (c :: read)
      rw [List.flatMap_cons, List.map_append, List.append_assoc, scanText, unit]
      simpa [Reading.push, Except.map] using further

theorem length_le_length_escaped (value : List Char) :
    value.length ≤ (value.flatMap escape).length := by
  induction value with
  | nil => exact Nat.le_refl _
  | cons c value ih =>
      have some_ : 0 < (escape c).length := by
        unfold escape
        split <;> try exact Nat.succ_pos _
        split <;> exact Nat.succ_pos _
      rw [List.flatMap_cons, List.length_append, List.length_cons]
      omega

/-- **A written text is one token with its value.** -/
theorem Cuts.text (cuts : Cuts rest list) (value : String) :
    Cuts ((textChars value).map .char ++ rest) (.text (.ok value) :: list) := by
  let inside : List Glyph := (value.toList.flatMap escape).map .char ++ .char '"' :: rest
  have shape : (textChars value).map Glyph.char ++ rest = .char '"' :: inside := by
    simp [textChars, inside]
  have longer := length_le_length_escaped value.toList
  have length : inside.length = (value.toList.flatMap escape).length + (rest.length + 1) := by
    simp [inside]
  have scans := scanText_escaped value.toList (inside.length + 1) (by omega) [] rest
  rw [List.reverse_nil, List.nil_append, String.ofList_toList] at scans
  rw [shape]
  exact cuts.token rfl scans (by omega)

/-! ## Words -/

theorem scanWord_append (whole : Token) (word : List Char) (rest : List Glyph) :
    scanWord whole word (word.map .char ++ rest) = (whole, rest) := by
  induction word with
  | nil => rfl
  | cons c word ih =>
      rw [List.map_cons, List.cons_append, scanWord, if_pos rfl]
      exact ih

/-- A word that its first character stands for is one token. -/
theorem Cuts.word {c : Char} {word : List Char} {whole : Token} (cuts : Cuts rest list)
    (solid : isSpace (.char c) = false)
    (stands : ∀ text, scanToken (.char c) text = scanWord whole word text) :
    Cuts ((c :: word).map .char ++ rest) (whole :: list) := by
  refine cuts.token solid ((stands _).trans (scanWord_append whole word rest)) ?_
  show rest.length ≤ (word.map Glyph.char ++ rest).length
  rw [List.length_append]
  omega

theorem Cuts.wordNull (cuts : Cuts rest list) :
    Cuts ("null".toList.map .char ++ rest) (.null :: list) := by
  show Cuts (('n' :: "ull".toList).map Glyph.char ++ rest) _
  exact cuts.word rfl fun _ => rfl

theorem Cuts.wordTrue (cuts : Cuts rest list) :
    Cuts ("true".toList.map .char ++ rest) (.bool true :: list) := by
  show Cuts (('t' :: "rue".toList).map Glyph.char ++ rest) _
  exact cuts.word rfl fun _ => rfl

theorem Cuts.wordFalse (cuts : Cuts rest list) :
    Cuts ("false".toList.map .char ++ rest) (.bool false :: list) := by
  show Cuts (('f' :: "alse".toList).map Glyph.char ++ rest) _
  exact cuts.word rfl fun _ => rfl

/-! ## Layouts -/

/-- Pieces as they are met when the text is read. -/
def glyphsOf (pieces : List (List Char)) : List Glyph := pieces.flatten.map .char

@[simp] theorem glyphsOf_nil : glyphsOf [] = [] := rfl

@[simp] theorem glyphsOf_cons (piece : List Char) (pieces : List (List Char)) :
    glyphsOf (piece :: pieces) = piece.map .char ++ glyphsOf pieces := by
  simp [glyphsOf]

@[simp] theorem glyphsOf_append (before after : List (List Char)) :
    glyphsOf (before ++ after) = glyphsOf before ++ glyphsOf after := by
  simp [glyphsOf]

variable {layout : Layout} {depth : Nat}

theorem Cuts.lineBreak (cuts : Cuts rest list) :
    Cuts ((layout.lineBreak depth).map .char ++ rest) list := by
  refine cuts.spaces fun c there => ?_
  cases layout with
  | compact => cases there
  | indented =>
      rcases List.mem_cons.mp there with rfl | blank
      · rfl
      · rw [List.eq_of_mem_replicate blank]
        rfl

theorem Cuts.colon (cuts : Cuts rest list) :
    Cuts (layout.colon.map .char ++ rest) (.mark .colon :: list) := by
  cases layout with
  | compact => exact cuts.mark rfl rfl
  | indented =>
      have blank : Cuts (.char ' ' :: rest) list := cuts.space rfl
      exact blank.mark rfl rfl

theorem Cuts.lead (cuts : Cuts rest list) (first : Bool) :
    Cuts (glyphsOf (layout.lead depth first) ++ rest) (separator first ++ list) := by
  have line : Cuts (glyphsOf [layout.lineBreak depth] ++ rest) list := by
    rw [glyphsOf_cons, glyphsOf_nil, List.append_nil]
    exact cuts.lineBreak
  cases first with
  | true => exact line
  | false => exact line.mark rfl rfl

theorem Cuts.close (cuts : Cuts rest list) {c : Char} {mark : Mark} (means : mark? c = some mark)
    (solid : isSpace (.char c) = false) (isEmpty : Bool) :
    Cuts (glyphsOf (layout.close depth isEmpty c) ++ rest) (.mark mark :: list) := by
  have marked : Cuts ([c].map .char ++ rest) (.mark mark :: list) := cuts.mark means solid
  cases isEmpty with
  | true =>
      rw [Layout.close, if_pos rfl, glyphsOf_cons, glyphsOf_nil, List.append_nil]
      exact marked
  | false =>
      rw [Layout.close, if_neg (by simp), glyphsOf_cons, glyphsOf_cons, glyphsOf_nil,
        List.append_nil, List.append_assoc]
      exact marked.lineBreak

/-! ## Values -/

mutual

/-- **The pieces of a value are cut into its spelling.** -/
theorem cuts_pieces (value : Json) (numberless : value.Numberless) (depth : Nat)
    {rest : List Glyph} {list : List Token} (cuts : Cuts rest list) :
    Cuts (glyphsOf (value.pieces layout depth) ++ rest) (value.spelling ++ list) := by
  match value with
  | .null => simpa [pieces, spelling] using cuts.wordNull
  | .bool true => simpa [pieces, spelling] using cuts.wordTrue
  | .bool false => simpa [pieces, spelling] using cuts.wordFalse
  | .number _ => exact numberless.elim
  | .text value => simpa [pieces, spelling] using cuts.text value
  | .array items =>
      have closed : Cuts (glyphsOf (layout.close depth items.isEmpty ']') ++ rest)
          (.mark .closeBracket :: list) := cuts.close rfl rfl items.isEmpty
      have inside := cuts_itemPieces items numberless true (depth + 1) closed
      simpa [pieces, spelling] using inside.mark (c := '[') rfl rfl
  | .object members =>
      have closed : Cuts (glyphsOf (layout.close depth members.isEmpty '\x7d') ++ rest)
          (.mark .closeBrace :: list) := cuts.close rfl rfl members.isEmpty
      have inside := cuts_memberPieces members numberless true (depth + 1) closed
      simpa [pieces, spelling] using inside.mark (c := '\x7b') rfl rfl

theorem cuts_itemPieces (items : List Json) (numberless : NumberlessItems items) (first : Bool)
    (depth : Nat) {rest : List Glyph} {list : List Token} (cuts : Cuts rest list) :
    Cuts (glyphsOf (itemPieces layout depth first items) ++ rest)
      (itemSpelling first items ++ list) := by
  match items with
  | [] => exact cuts
  | item :: others =>
      have later := cuts_itemPieces others numberless.2 false depth cuts
      have front := cuts_pieces item numberless.1 depth later
      have whole : Cuts (glyphsOf (layout.lead depth first) ++ _) _ := front.lead first
      simpa [itemPieces, itemSpelling] using whole

theorem cuts_memberPieces (members : List (String × Json)) (numberless : NumberlessMembers members)
    (first : Bool) (depth : Nat) {rest : List Glyph} {list : List Token} (cuts : Cuts rest list) :
    Cuts (glyphsOf (memberPieces layout depth first members) ++ rest)
      (memberSpelling first members ++ list) := by
  match members with
  | [] => exact cuts
  | member :: others =>
      have later := cuts_memberPieces others numberless.2 false depth cuts
      have front := cuts_memberPiece member numberless.1 depth later
      have whole : Cuts (glyphsOf (layout.lead depth first) ++ _) _ := front.lead first
      simpa [memberPieces, memberSpelling] using whole

theorem cuts_memberPiece (member : String × Json) (numberless : NumberlessMember member)
    (depth : Nat) {rest : List Glyph} {list : List Token} (cuts : Cuts rest list) :
    Cuts (glyphsOf (memberPiece layout depth member) ++ rest) (fieldSpelling member ++ list) := by
  match member with
  | (key, value) =>
      have valued := cuts_pieces value numberless depth cuts
      have marked : Cuts (layout.colon.map .char ++ _) _ := valued.colon
      simpa [memberPiece, fieldSpelling] using marked.text key

end

/-- **A written value has the tokens of its spelling**, in either layout and with a line break
after it. -/
theorem tokens_pieces (layout : Layout) {value : Json} (numberless : value.Numberless) :
    tokens (((value.pieces layout 0).flatten ++ ['\n']).map .char) = value.spelling := by
  have ending : Cuts [.char '\n'] [] := Cuts.nil.space rfl
  have whole : Cuts (glyphsOf (value.pieces layout 0) ++ _) _ :=
    cuts_pieces value numberless 0 ending
  rw [List.append_nil] at whole
  rw [List.map_append]
  exact whole.tokens_eq

/-- The text of a value has the tokens of its spelling. -/
theorem tokens_chars (layout : Layout) {value : Json} (numberless : value.Numberless) :
    tokens ((value.chars layout).map .char) = value.spelling := by
  have whole : Cuts (glyphsOf (value.pieces layout 0) ++ []) (value.spelling ++ []) :=
    cuts_pieces value numberless 0 Cuts.nil
  rw [List.append_nil, List.append_nil] at whole
  exact whole.tokens_eq

end ProgramModel.Json
