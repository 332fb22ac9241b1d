/-
# ProgramModel.Yaml.Cursor -- a place in a YAML text

A cursor is what is left of a text together with the place of its front: the number
of bytes before it, its line and its column.  Columns decide about nesting, lines and
distances about which texts can still turn out to be keys.  A column counts characters,
a distance counts the bytes of their encoding.
-/
namespace ProgramModel.Yaml

set_option autoImplicit false

/-! ## Characters -/

/-- Whether a YAML text may hold the character. -/
def isAllowed (c : Char) : Bool :=
  let n := c.toNat
  n == 0x9 || n == 0xA || n == 0xD || (0x20 ≤ n && n ≤ 0x7E) || n == 0x85 ||
    (0xA0 ≤ n && n ≤ 0xFFFD) || 0x10000 ≤ n

/-- Whether the character ends a line. -/
def isBreak (c : Char) : Bool :=
  c == '\n' || c == '\r' || c == '\x85' || c == '\u2028' || c == '\u2029'

/-- Whether the character is a blank inside a line. -/
def isGap (c : Char) : Bool := c == ' ' || c == '\t'

/-- Whether names of anchors, handles and directives may hold the character. -/
def isNameChar (c : Char) : Bool := c.isAlphanum || c == '_' || c == '-'

/-- The characters that structure a flow collection. -/
def isFlowMark (c : Char) : Bool :=
  c == ',' || c == '[' || c == ']' || c == '\x7b' || c == '\x7d'

/-- Whether nothing more of a word follows: a blank, a line break or the end of the text. -/
def endsWord : Option Char → Bool
  | none => true
  | some c => isGap c || isBreak c

/-- What a line break means in the content of a scalar. -/
def breakMeaning (c : Char) : Char := if c == '\u2028' || c == '\u2029' then c else '\n'

/-- The number of bytes that characters take. -/
def byteCount (text : List Char) : Nat := text.foldl (fun count c => count + c.utf8Size) 0

/-! ## Cursors -/

/-- A place in a text, with the number of bytes before it. -/
structure Cursor where
  rest : List Char
  index : Nat := 0
  line : Nat := 0
  column : Nat := 0

namespace Cursor

def next? (cursor : Cursor) : Option Char := cursor.rest.head?

/-- Pass over characters of the line. -/
def advance (cursor : Cursor) (count : Nat) : Cursor :=
  { cursor with
    rest := cursor.rest.drop count
    index := cursor.index + byteCount (cursor.rest.take count)
    column := cursor.column + count }

/-- The characters at the front that have a property, and the place after them. -/
def span (cursor : Cursor) (keep : Char → Bool) : List Char × Cursor :=
  let taken := cursor.rest.takeWhile keep
  (taken, cursor.advance taken.length)

/-- The place after the characters at the front that have a property. -/
def skip (cursor : Cursor) (keep : Char → Bool) : Cursor := (cursor.span keep).2

/-- The place after a line break. -/
def skipBreak (cursor : Cursor) : Cursor :=
  match cursor.rest with
  | '\r' :: '\n' :: rest => ⟨rest, cursor.index + 2, cursor.line + 1, 0⟩
  | c :: rest => ⟨rest, cursor.index + c.utf8Size, cursor.line + 1, 0⟩
  | [] => cursor

/-- The place after a comment, if one begins here. -/
def skipComment (cursor : Cursor) : Cursor :=
  if cursor.next? = some '#' then cursor.skip (fun c => !isBreak c) else cursor

/-- Whether a line begins here that marks the start or the end of a document. -/
def isAtMarker (cursor : Cursor) (mark : Char) : Bool :=
  cursor.column == 0 && [mark, mark, mark].isPrefixOf cursor.rest && endsWord cursor.rest[3]?

/-- Whether a document marker begins here. -/
def isAtDocumentMarker (cursor : Cursor) : Bool := cursor.isAtMarker '-' || cursor.isAtMarker '.'

/-- The place after the rest of a line that may hold blanks and a comment only. -/
def finishLine? (cursor : Cursor) : Option Cursor :=
  let cursor := (cursor.skip isGap).skipComment
  match cursor.next? with
  | none => some cursor
  | some c => if isBreak c then some cursor.skipBreak else none

/-- Pass over blanks, comments and line breaks.  In a block, a tab is a blank only where no key
may begin, and a key may begin after every line break.  Tells where the next token is and whether a
key may begin there. -/
def skipToToken (inFlow : Bool) : Nat → Bool → Cursor → Bool × Cursor
  | 0, keyAllowed, cursor => (keyAllowed, cursor)
  | fuel + 1, keyAllowed, cursor =>
      let cursor := if cursor.column = 0 ∧ cursor.next? = some '\uFEFF' then cursor.advance 1
        else cursor
      let cursor := cursor.skip fun c => c == ' ' || ((inFlow || !keyAllowed) && c == '\t')
      let cursor := cursor.skipComment
      match cursor.next? with
      | none => (keyAllowed, cursor)
      | some c =>
          if isBreak c then skipToToken inFlow fuel (keyAllowed || !inFlow) cursor.skipBreak
          else (keyAllowed, cursor)

end Cursor

end ProgramModel.Yaml
