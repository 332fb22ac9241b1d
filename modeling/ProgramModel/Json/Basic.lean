/-
# ProgramModel.Json.Basic -- JSON values and their two layouts

A value is written either compactly or indented by two spaces a level.  Both
layouts write the same marks, texts and numbers in the same order and differ only
in the blanks between them.  A text escapes the quote, the backslash and the
control characters, the common ones by their short names, and nothing else.

A value is written piece by piece (`pieces`), which is what a sink that may fail
in the middle gets to see; `text` is the pieces joined.
-/
namespace ProgramModel

set_option autoImplicit false

/-- A JSON value.  Numbers are counts. -/
inductive Json where
  | null
  | bool (value : Bool)
  | number (value : Nat)
  | text (value : String)
  | array (items : List Json)
  | object (members : List (String × Json))
  deriving Repr, Inhabited

namespace Json

/-! ## Texts -/

/-- A hexadecimal digit, in lower case. -/
def hexDigit (value : Nat) : Char := Nat.digitChar value

/-- One character inside a text. -/
def escape (c : Char) : List Char :=
  match c with
  | '"' => ['\\', '"']
  | '\\' => ['\\', '\\']
  | '\x08' => ['\\', 'b']
  | '\x0c' => ['\\', 'f']
  | '\n' => ['\\', 'n']
  | '\r' => ['\\', 'r']
  | '\t' => ['\\', 't']
  | c =>
      if c.toNat < 0x20 then
        ['\\', 'u', '0', '0', hexDigit (c.toNat / 16), hexDigit (c.toNat % 16)]
      else [c]

/-- A text between its quotes. -/
def textChars (value : String) : List Char := '"' :: value.toList.flatMap escape ++ ['"']

/-! ## Layouts -/

/-- How a value is laid out. -/
inductive Layout where
  | compact
  | indented
  deriving DecidableEq, Repr, Inhabited

namespace Layout

/-- What stands before an item at a depth. -/
def lineBreak (layout : Layout) (depth : Nat) : List Char :=
  match layout with
  | .compact => []
  | .indented => '\n' :: List.replicate (2 * depth) ' '

/-- What stands between a key and its value. -/
def colon : Layout → List Char
  | .compact => [':']
  | .indented => [':', ' ']

end Layout

/-- What stands before an item: a comma unless it is the first, and the line break. -/
def Layout.lead (layout : Layout) (depth : Nat) (first : Bool) : List (List Char) :=
  (if first then [] else [[',']]) ++ [layout.lineBreak depth]

/-- The closing mark of a list at a depth, on a line of its own unless the list is empty. -/
def Layout.close (layout : Layout) (depth : Nat) (isEmpty : Bool) (mark : Char) :
    List (List Char) :=
  if isEmpty then [[mark]] else [layout.lineBreak depth, [mark]]

mutual

/-- The pieces of a value that stands at a depth. -/
def pieces (layout : Layout) (depth : Nat) : Json → List (List Char)
  | .null => ["null".toList]
  | .bool true => ["true".toList]
  | .bool false => ["false".toList]
  | .number value => [Nat.toDigits 10 value]
  | .text value => [textChars value]
  | .array items =>
      ['['] :: itemPieces layout (depth + 1) true items ++ layout.close depth items.isEmpty ']'
  | .object members =>
      ['\x7b'] :: memberPieces layout (depth + 1) true members ++
        layout.close depth members.isEmpty '\x7d'

def itemPieces (layout : Layout) (depth : Nat) (first : Bool) : List Json → List (List Char)
  | [] => []
  | item :: rest =>
      layout.lead depth first ++ pieces layout depth item ++ itemPieces layout depth false rest

def memberPieces (layout : Layout) (depth : Nat) (first : Bool) :
    List (String × Json) → List (List Char)
  | [] => []
  | member :: rest =>
      layout.lead depth first ++ memberPiece layout depth member ++
        memberPieces layout depth false rest

def memberPiece (layout : Layout) (depth : Nat) : String × Json → List (List Char)
  | (key, value) => textChars key :: layout.colon :: pieces layout depth value

end

/-- A value as text. -/
def chars (layout : Layout) (value : Json) : List Char := (value.pieces layout 0).flatten

/-- A value as text. -/
def render (layout : Layout) (value : Json) : String := String.ofList (value.chars layout)

end Json

end ProgramModel
