/-
# ProgramModel.Yaml.Scalar -- scalars and how their lines are folded

A plain or quoted scalar may go on over several lines.  Between two words stands a
gap; a gap with a line break in it folds to one blank, and each further break in it
is kept.  A block scalar takes whole lines: a literal one keeps their breaks, a folded
one joins lines that do not begin with a blank.
-/
import ProgramModel.Yaml.Cursor

namespace ProgramModel.Yaml

set_option autoImplicit false

/-- How a scalar is written. -/
inductive ScalarStyle where
  | plain
  | quoted
  | literal
  | folded
  deriving DecidableEq, Repr

/-! ## Gaps -/

/-- What stands between two words: blanks of a line, or line breaks. -/
structure Gap where
  /-- The blanks before the first line break. -/
  spaces : List Char := []
  /-- The meaning of each line break. -/
  breaks : List Char := []

namespace Gap

/-- What a gap amounts to in the content. -/
def text : Gap → List Char
  | ⟨spaces, []⟩ => spaces
  | ⟨_, ['\n']⟩ => [' ']
  | ⟨_, '\n' :: others⟩ => others
  | ⟨_, breaks⟩ => breaks

/-- Whether the gap goes over the end of a line. -/
def isBroken (gap : Gap) : Bool := !gap.breaks.isEmpty

/-- Take in the rest of a gap.  After a line break, a tab before column `indent` is refused. -/
def scan (indent : Nat) : Nat → Gap → Cursor → Option (Gap × Cursor)
  | 0, _, _ => none
  | fuel + 1, gap, cursor =>
      match cursor.next? with
      | none => some (gap, cursor)
      | some c =>
          if isGap c then
            if !gap.isBroken then
              scan indent fuel { gap with spaces := gap.spaces ++ [c] } (cursor.advance 1)
            else if c = '\t' ∧ cursor.column < indent then none
            else scan indent fuel gap (cursor.advance 1)
          else if isBreak c then
            scan indent fuel { gap with breaks := gap.breaks ++ [breakMeaning c] } cursor.skipBreak
          else some (gap, cursor)

/-- The gap that begins at a place. -/
def at? (indent : Nat) (cursor : Cursor) : Option (Gap × Cursor) :=
  scan indent (cursor.rest.length + 1) {} cursor

end Gap

/-! ## Quoted scalars -/

def shortEscape? : Char → Option Char
  | '0' => some '\x00'
  | 'a' => some '\x07'
  | 'b' => some '\x08'
  | 't' => some '\t'
  | '\t' => some '\t'
  | 'n' => some '\n'
  | 'v' => some '\x0b'
  | 'f' => some '\x0c'
  | 'r' => some '\r'
  | 'e' => some '\x1b'
  | ' ' => some ' '
  | '"' => some '"'
  | '/' => some '/'
  | '\\' => some '\\'
  | 'N' => some '\x85'
  | '_' => some '\u00A0'
  | 'L' => some '\u2028'
  | 'P' => some '\u2029'
  | _ => none

/-- The number of hexadecimal digits after an escape by code point. -/
def codeLength? : Char → Option Nat
  | 'x' => some 2
  | 'u' => some 4
  | 'U' => some 8
  | _ => none

def hexDigit? (c : Char) : Option Nat :=
  if '0' ≤ c ∧ c ≤ '9' then some (c.toNat - '0'.toNat)
  else if 'a' ≤ c ∧ c ≤ 'f' then some (c.toNat - 'a'.toNat + 10)
  else if 'A' ≤ c ∧ c ≤ 'F' then some (c.toNat - 'A'.toNat + 10)
  else none

def hexValue? (digits : List Char) : Option Nat :=
  digits.foldlM (fun value c => (hexDigit? c).map (value * 16 + ·)) 0

/-- The character that an escape means, and how many characters follow the backslash. -/
def escape? (c : Char) (rest : List Char) : Option (Char × Nat) :=
  match shortEscape? c with
  | some meant => some (meant, 1)
  | none => do
      let length ← codeLength? c
      let digits := rest.take length
      guard (digits.length = length)
      let value ← hexValue? digits
      guard value.isValidChar
      return (Char.ofNat value, length + 1)

/-- Which quotes stand around a scalar. -/
inductive Quote where
  | single
  | double
  deriving DecidableEq, Repr

/-- Scan a quoted scalar from inside its quotes; `text` is what has been read, last first. -/
def scanQuoted (quote : Quote) : Nat → List Char → Cursor → Option (List Char × Cursor)
  | 0, _, _ => none
  | fuel + 1, text, cursor =>
      if cursor.isAtDocumentMarker then none
      else match quote, cursor.rest with
        | _, [] => none
        | .single, '\'' :: '\'' :: _ => scanQuoted quote fuel ('\'' :: text) (cursor.advance 2)
        | .single, '\'' :: _ => some (text.reverse, cursor.advance 1)
        | .double, '"' :: _ => some (text.reverse, cursor.advance 1)
        | .double, '\\' :: c :: rest =>
            if isBreak c then do
              let (gap, after) ← Gap.at? 0 (cursor.advance 1).skipBreak
              scanQuoted quote fuel (gap.breaks.reverse ++ text) after
            else do
              let (meant, size) ← escape? c rest
              scanQuoted quote fuel (meant :: text) (cursor.advance (size + 1))
        | _, c :: _ =>
            if isGap c || isBreak c then do
              let (gap, after) ← Gap.at? 0 cursor
              scanQuoted quote fuel (gap.text.reverse ++ text) after
            else scanQuoted quote fuel (c :: text) (cursor.advance 1)

/-- The quoted scalar whose opening quote stands at a place. -/
def quotedAt? (quote : Quote) (cursor : Cursor) : Option (List Char × Cursor) :=
  scanQuoted quote (cursor.rest.length + 1) [] (cursor.advance 1)

/-! ## Plain scalars -/

/-- The length of the word at the front of a text.  A colon ends a word if nothing more of the word
follows it; in a flow collection it may not stand before a structuring character. -/
def wordLength? (inFlow : Bool) : List Char → Option Nat
  | [] => some 0
  | c :: rest =>
      if isGap c || isBreak c then some 0
      else if inFlow && c == ':' && rest.head?.any (fun d => isFlowMark d || d == '?') then none
      else if (c == ':' && endsWord rest.head?) || (inFlow && isFlowMark c) then some 0
      else (wordLength? inFlow rest).map (· + 1)

/-- A plain scalar: its content, whether the gap after it goes over the end of a line, and the
place after that gap. -/
structure PlainScan where
  text : List Char
  isBroken : Bool
  after : Cursor

/-- Scan a plain scalar, from a place where a word may begin; `text` is what has been read, last
first.  In a block it ends at a line that is indented by less than `indent`. -/
def scanPlain (inFlow : Bool) (indent : Nat) : Nat → List Char → Gap → Cursor → Option PlainScan
  | 0, _, _, _ => none
  | fuel + 1, text, gap, cursor =>
      if cursor.isAtDocumentMarker || cursor.next? == some '#' then
        some ⟨text.reverse, gap.isBroken, cursor⟩
      else do
        let size ← wordLength? inFlow cursor.rest
        if size = 0 then return ⟨text.reverse, gap.isBroken, cursor⟩
        let text := (cursor.rest.take size).reverse ++ (gap.text.reverse ++ text)
        let wordEnd := cursor.advance size
        let (gap, after) ← Gap.at? indent wordEnd
        if after.index = wordEnd.index ∨ (!inFlow ∧ after.column < indent) then
          return ⟨text.reverse, gap.isBroken, after⟩
        scanPlain inFlow indent fuel text gap after

/-- The plain scalar that begins at a place. -/
def plainAt? (inFlow : Bool) (indent : Nat) (cursor : Cursor) : Option PlainScan :=
  scanPlain inFlow indent (cursor.rest.length + 1) [] {} cursor

/-! ## Block scalars -/

/-- What becomes of the line breaks at the end of a block scalar. -/
inductive Chomping where
  | strip
  | clip
  | keep
  deriving DecidableEq, Repr

/-- The chomping indicator at a place; there need not be one. -/
def scanChomping (cursor : Cursor) : Chomping × Cursor :=
  match cursor.next? with
  | some '+' => (.keep, cursor.advance 1)
  | some '-' => (.strip, cursor.advance 1)
  | _ => (.clip, cursor)

/-- The indentation indicator at a place, which is not zero; there need not be one. -/
def scanIncrement (cursor : Cursor) : Option (Nat × Cursor) :=
  match cursor.next? with
  | some '0' => none
  | some c => if c.isDigit then some (c.toNat - '0'.toNat, cursor.advance 1) else some (0, cursor)
  | none => some (0, cursor)

/-- The header of a block scalar: both indicators in either order, and the rest of the line. -/
def scanHeader (cursor : Cursor) : Option (Chomping × Nat × Cursor) := do
  let (chomping, cursor) := scanChomping cursor
  let (increment, cursor) ← scanIncrement cursor
  let (chomping, cursor) :=
    if chomping = .clip ∧ increment ≠ 0 then scanChomping cursor else (chomping, cursor)
  return (chomping, increment, ← cursor.finishLine?)

/-- The lines before the next content of a block scalar. -/
structure Indentation where
  /-- The greatest number of blanks in front of a line. -/
  widest : Nat := 0
  breaks : List Char := []
  after : Cursor

/-- Pass over empty lines and the blanks that indent the next line, at most `indent` of them unless
that is zero.  A tab is no indentation. -/
def scanIndentation (indent : Nat) : Nat → Indentation → Option Indentation
  | 0, _ => none
  | fuel + 1, found =>
      let cursor := found.after
      let blanks := (cursor.rest.takeWhile (· == ' ')).length
      let cursor := cursor.advance
        (if indent = 0 then blanks else min blanks (indent - cursor.column))
      let widest := max found.widest cursor.column
      match cursor.next? with
      | none => some { found with widest, after := cursor }
      | some c =>
          if c = '\t' ∧ (indent = 0 ∨ cursor.column < indent) then none
          else if isBreak c then
            scanIndentation indent fuel
              ⟨widest, found.breaks ++ [breakMeaning c], cursor.skipBreak⟩
          else some { found with widest, after := cursor }

/-- The indentation of the lines from a place on. -/
def indentationAt? (indent : Nat) (cursor : Cursor) : Option Indentation :=
  scanIndentation indent (cursor.rest.length + 1) { after := cursor }

/-- The lines of a block scalar that have been read. -/
structure BlockLines where
  /-- The content, last character first. -/
  text : List Char := []
  lastBreak : List Char := []
  /-- The breaks of the empty lines after it. -/
  emptyBreaks : List Char := []
  /-- Whether the last line begins with a blank. -/
  isIndented : Bool := false
  after : Cursor

/-- What the breaks before a line amount to, which begins with a blank or not: they are folded if
the scalar is and neither line begins with a blank. -/
def BlockLines.joint (lines : BlockLines) (isLiteral isIndented : Bool) : List Char :=
  if !isLiteral ∧ lines.lastBreak = ['\n'] ∧ !lines.isIndented ∧ !isIndented then
    if lines.emptyBreaks.isEmpty then [' '] else lines.emptyBreaks
  else lines.lastBreak ++ lines.emptyBreaks

/-- Read the lines of a block scalar that are indented by `indent`. -/
def scanLines (isLiteral : Bool) (indent : Nat) : Nat → BlockLines → Option BlockLines
  | 0, _ => none
  | fuel + 1, lines =>
      let cursor := lines.after
      match cursor.next? with
      | none => some lines
      | some c =>
          if cursor.column ≠ indent then some lines
          else do
            let (line, after) := cursor.span fun c => !isBreak c
            let found ← indentationAt? indent after.skipBreak
            scanLines isLiteral indent fuel
              { text := (lines.joint isLiteral (isGap c) ++ line).reverse ++ lines.text
                lastBreak := after.next?.toList.map breakMeaning
                emptyBreaks := found.breaks
                isIndented := isGap c
                after := found.after }

/-- The content of a block scalar with its end chomped. -/
def BlockLines.chomped (lines : BlockLines) : Chomping → List Char
  | .strip => lines.text.reverse
  | .clip => lines.text.reverse ++ lines.lastBreak
  | .keep => lines.text.reverse ++ lines.lastBreak ++ lines.emptyBreaks

/-- The block scalar whose indicator stands at a place, inside of a block of indentation `outer`. -/
def blockAt? (isLiteral : Bool) (outer : Option Nat) (cursor : Cursor) :
    Option (List Char × Cursor) := do
  let (chomping, increment, cursor) ← scanHeader (cursor.advance 1)
  let given := if increment = 0 then 0 else outer.getD 0 + increment
  let found ← indentationAt? given cursor
  let indent := if given ≠ 0 then given else max (max found.widest ((outer.map (· + 1)).getD 0)) 1
  let lines ← scanLines isLiteral indent (cursor.rest.length + 1)
    { emptyBreaks := found.breaks, after := found.after }
  return (lines.chomped chomping, lines.after)

end ProgramModel.Yaml
