/-
# ProgramModel.Json.Token -- a JSON text as marks, words, texts and numbers

`tokens` cuts a text into tokens and drops the blanks between them.  Where a token
turns out not to be well formed depends on its reader: a reader that wants the
value is strict about surrogates, bytes and ranges, and one that passes over a
value is not.  So a text or number that is whole carries its strict reading, which
may be a fault, and one that is not ends the list as a `broken` token with the
fault for either reader.  Nothing after it can matter.
-/
import ProgramModel.Json.Number

namespace ProgramModel.Json

set_option autoImplicit false

open Text (Glyph)

/-- The structural characters. -/
inductive Mark where
  | openBrace
  | closeBrace
  | openBracket
  | closeBracket
  | comma
  | colon
  deriving DecidableEq, Repr

/-- One token of a JSON text. -/
inductive Token where
  | mark (mark : Mark)
  | null
  | bool (value : Bool)
  | text (strict : Except Fault String)
  | number (strict : Except Fault Found)
  | broken (isText : Bool) (strict lenient : Fault)

/-! ## Texts -/

def hexValue? : Glyph → Option Nat
  | .char c =>
      if '0' ≤ c ∧ c ≤ '9' then some (c.toNat - '0'.toNat)
      else if 'a' ≤ c ∧ c ≤ 'f' then some (c.toNat - 'a'.toNat + 10)
      else if 'A' ≤ c ∧ c ≤ 'F' then some (c.toNat - 'A'.toNat + 10)
      else none
  | .malformed _ => none

/-- The number of bytes that glyphs stand for. -/
def byteCount (text : List Glyph) : Nat :=
  text.foldr (fun glyph count => glyph.size + count) 0

/-- Four hexadecimal digits.  A text of fewer than four more bytes ends too early. -/
def hexEscape (text : List Glyph) : Except Fault (Nat × List Glyph) :=
  match text with
  | a :: b :: c :: d :: rest =>
      match hexValue? a, hexValue? b, hexValue? c, hexValue? d with
      | some a, some b, some c, some d => .ok (((a * 16 + b) * 16 + c) * 16 + d, rest)
      | _, _, _, _ => .error (if byteCount text < 4 then .endOfString else .invalidEscape)
  | _ => .error (if byteCount text < 4 then .endOfString else .invalidEscape)

/-- What the characters of a text amount to so far: those read, last first, or the first reason
why a strict reader refuses them. -/
abbrev Reading := Except Fault (List Char)

namespace Reading

def push (reading : Reading) (c : Char) : Reading := reading.map (c :: ·)

/-- Refuse what comes now, unless something was refused before. -/
def refuse (reading : Reading) (fault : Fault) : Reading := reading.bind fun _ => .error fault

end Reading

/-- A text that ends before its closing quote, for both readers. -/
def unfinished (reading : Reading) (fault : Fault) : Token :=
  match reading with
  | .ok _ => .broken true fault fault
  | .error earlier => .broken true earlier fault

/-- What is read of a text: its token, and what follows when it is whole. -/
abbrev TextScan := Token × List Glyph

/-- Whether a code unit leads a surrogate pair. -/
def isLeading (unit : Nat) : Bool := 0xD800 ≤ unit && unit ≤ 0xDBFF

/-- Whether a code unit ends a surrogate pair. -/
def isTrailing (unit : Nat) : Bool := 0xDC00 ≤ unit && unit ≤ 0xDFFF

def pairedChar (leading trailing : Nat) : Char :=
  Char.ofNat ((leading - 0xD800) * 0x400 + (trailing - 0xDC00) + 0x10000)

/-- What a text holds at one place. -/
inductive TextUnit where
  /-- The closing quote. -/
  | close
  /-- A character, as it is or escaped. -/
  | char (c : Char)
  /-- Bytes that are no character; a strict reader refuses them at the end of the text. -/
  | malformed
  /-- An escaped code unit that is half of a surrogate pair. -/
  | surrogate (value : Nat)
  /-- Something that no reader accepts. -/
  | wrong (fault : Fault)

def shortEscape? : Char → Option Char
  | '"' => some '"'
  | '\\' => some '\\'
  | '/' => some '/'
  | 'b' => some '\x08'
  | 'f' => some '\x0c'
  | 'n' => some '\n'
  | 'r' => some '\r'
  | 't' => some '\t'
  | _ => none

/-- The escape after a backslash. -/
def scanEscape : List Glyph → TextUnit × List Glyph
  | [] => (.wrong .endOfString, [])
  | .char 'u' :: rest =>
      match hexEscape rest with
      | .error fault => (.wrong fault, rest)
      | .ok (value, after) =>
          if isLeading value || isTrailing value then (.surrogate value, after)
          else (.char (Char.ofNat value), after)
  | .char c :: rest =>
      match shortEscape? c with
      | some meant => (.char meant, rest)
      | none => (.wrong .invalidEscape, rest)
  | .malformed _ :: rest => (.wrong .invalidEscape, rest)

/-- What stands at the front of the inside of a text. -/
def scanUnit : List Glyph → TextUnit × List Glyph
  | [] => (.wrong .endOfString, [])
  | .malformed _ :: rest => (.malformed, rest)
  | .char '"' :: rest => (.close, rest)
  | .char '\\' :: rest => scanEscape rest
  | .char c :: rest => if c.toNat < 0x20 then (.wrong .controlCharacter, rest) else (.char c, rest)

/-- What a strict reader finds after an escaped leading surrogate: a trailing one, which completes
the character, or a fault. -/
def completePair (leading : Nat) : List Glyph → Except Fault (Char × List Glyph)
  | [] => .error .endOfString
  | [.char '\\'] => .error .endOfString
  | .char '\\' :: .char 'u' :: rest =>
      match hexEscape rest with
      | .error fault => .error fault
      | .ok (trailing, after) =>
          if isTrailing trailing then .ok (pairedChar leading trailing, after)
          else .error .loneSurrogate
  | _ => .error .unfinishedSurrogate

/-- Scan the inside of a text.  `isMalformed` says that bytes were met that are no characters. -/
def scanText : Nat → Reading → Bool → List Glyph → TextScan
  | 0, reading, _, _ => (unfinished reading .endOfString, [])
  | fuel + 1, reading, isMalformed, glyphs =>
      match scanUnit glyphs with
      | (.close, rest) =>
          let reading := if isMalformed then reading.refuse .malformedText else reading
          (.text (reading.map fun reversed => String.ofList reversed.reverse), rest)
      | (.char c, rest) => scanText fuel (reading.push c) isMalformed rest
      | (.malformed, rest) => scanText fuel reading true rest
      | (.surrogate value, rest) =>
          if isTrailing value then
            scanText fuel (reading.refuse .loneSurrogate) isMalformed rest
          else match completePair value rest with
            | .ok (c, rest) => scanText fuel (reading.push c) isMalformed rest
            | .error fault => scanText fuel (reading.refuse fault) isMalformed rest
      | (.wrong fault, _) => (unfinished reading fault, [])

/-! ## Words -/

/-- The rest of a word whose first character stands for it. -/
def scanWord (whole : Token) : List Char → List Glyph → Token × List Glyph
  | [], glyphs => (whole, glyphs)
  | _ :: _, [] => (.broken false .endOfValue .endOfValue, [])
  | c :: more, glyph :: rest =>
      if glyph = .char c then scanWord whole more rest
      else (.broken false .identExpected .identExpected, [])

/-! ## Tokens -/

def scanNumber (text : List Glyph) : Token × List Glyph :=
  match Numeral.scan text with
  | .ok (numeral, rest) => (.number numeral.worth, rest)
  | .error .wrong => (.broken false .invalidNumber .invalidNumber, [])
  | .error .ended => (.broken false .endOfValue .invalidNumber, [])

def mark? : Char → Option Mark
  | '\x7b' => some .openBrace
  | '\x7d' => some .closeBrace
  | '[' => some .openBracket
  | ']' => some .closeBracket
  | ',' => some .comma
  | ':' => some .colon
  | _ => none

def scanToken (glyph : Glyph) (rest : List Glyph) : Token × List Glyph :=
  match glyph with
  | .malformed _ => (.broken false .valueExpected .valueExpected, [])
  | .char c =>
      match mark? c with
      | some mark => (.mark mark, rest)
      | none =>
          match c with
          | '"' => scanText (rest.length + 1) (.ok []) false rest
          | 'n' => scanWord .null "ull".toList rest
          | 't' => scanWord (.bool true) "rue".toList rest
          | 'f' => scanWord (.bool false) "alse".toList rest
          | c =>
              if c = '-' ∨ ('0' ≤ c ∧ c ≤ '9') then scanNumber (.char c :: rest)
              else (.broken false .valueExpected .valueExpected, [])

/-- Whether JSON allows the glyph between tokens. -/
def isSpace : Glyph → Bool
  | .char c => c == ' ' || c == '\n' || c == '\t' || c == '\r'
  | .malformed _ => false

/-- Cut a text into at most `fuel` tokens. -/
def tokensWithin : Nat → List Glyph → List Token
  | 0, _ => []
  | _ + 1, [] => []
  | fuel + 1, glyph :: rest =>
      if isSpace glyph then tokensWithin fuel rest
      else
        let (token, rest) := scanToken glyph rest
        token :: tokensWithin fuel rest

/-- The tokens of a text; each takes at least one glyph. -/
def tokens (text : List Glyph) : List Token := tokensWithin text.length text

end ProgramModel.Json
