/-
# ProgramModel.Text.Utf8 -- characters as bytes, and bytes as characters where they are any

Files hold bytes.  `encode` writes characters as UTF-8; `decode` reads bytes as a
list of glyphs, where a glyph is a character or a run of bytes that begins none.
A malformed run is as long as the well-formed beginning of a character that it
holds, and one byte if it holds no such beginning.
-/
namespace ProgramModel.Text

set_option autoImplicit false

/-- What a place in a sequence of bytes holds: a character, or a run of `size` bytes that
begins no character. -/
inductive Glyph where
  | char (c : Char)
  | malformed (size : Nat)
  deriving DecidableEq, Repr

namespace Glyph

/-- The number of bytes that the glyph stands for. -/
def size : Glyph → Nat
  | .char c => c.utf8Size
  | .malformed size => size

/-- The character of a glyph, if it is one. -/
def toChar? : Glyph → Option Char
  | .char c => some c
  | .malformed _ => none

/-- The glyph as a character to show, with the replacement character for malformed bytes. -/
def shown : Glyph → Char
  | .char c => c
  | .malformed _ => '\uFFFD'

end Glyph

def encode (text : List Char) : List UInt8 :=
  text.flatMap String.utf8EncodeChar

/-- What a leading byte promises: the number of bytes that follow it, and the least and the
greatest value that the first of them may have. -/
def leadPromise (lead : Nat) : Option (Nat × Nat × Nat) :=
  if 0xC2 ≤ lead ∧ lead ≤ 0xDF then some (1, 0x80, 0xBF)
  else if lead = 0xE0 then some (2, 0xA0, 0xBF)
  else if lead = 0xED then some (2, 0x80, 0x9F)
  else if 0xE1 ≤ lead ∧ lead ≤ 0xEF then some (2, 0x80, 0xBF)
  else if lead = 0xF0 then some (3, 0x90, 0xBF)
  else if 0xF1 ≤ lead ∧ lead ≤ 0xF3 then some (3, 0x80, 0xBF)
  else if lead = 0xF4 then some (3, 0x80, 0x8F)
  else none

/-- The bytes at the front that continue a character, at most `wanted` of them; the first has
bounds of its own. -/
def continuation (least greatest : Nat) : Nat → List UInt8 → List Nat
  | 0, _ => []
  | _ + 1, [] => []
  | wanted + 1, byte :: rest =>
      if least ≤ byte.toNat ∧ byte.toNat ≤ greatest then
        byte.toNat :: continuation 0x80 0xBF wanted rest
      else []

def codePoint (lead : Nat) (following : List Nat) : Nat :=
  let own := match following.length with
    | 1 => lead - 0xC0
    | 2 => lead - 0xE0
    | _ => lead - 0xF0
  following.foldl (fun value byte => value * 64 + (byte - 0x80)) own

/-- The glyph that begins with `byte`, and how many of the bytes after it belong to it. -/
def glyphAt (byte : UInt8) (rest : List UInt8) : Glyph × Nat :=
  if byte.toNat < 0x80 then (.char (Char.ofNat byte.toNat), 0)
  else match leadPromise byte.toNat with
    | none => (.malformed 1, 0)
    | some (wanted, least, greatest) =>
        let following := continuation least greatest wanted rest
        if following.length = wanted then
          (.char (Char.ofNat (codePoint byte.toNat following)), wanted)
        else (.malformed (following.length + 1), following.length)

/-- Read glyphs, passing over `pending` bytes that belong to the glyph before. -/
def decodeFrom : Nat → List UInt8 → List Glyph
  | _, [] => []
  | pending + 1, _ :: rest => decodeFrom pending rest
  | 0, byte :: rest =>
      let (glyph, taken) := glyphAt byte rest
      glyph :: decodeFrom taken rest

def decode (bytes : List UInt8) : List Glyph := decodeFrom 0 bytes

/-- The characters of a sequence of bytes that is UTF-8 throughout. -/
def decode? (bytes : List UInt8) : Option (List Char) := (decode bytes).mapM Glyph.toChar?

/-- The text of a sequence of bytes, with the replacement character for what is malformed. -/
def decodeLossy (bytes : List UInt8) : String := String.ofList ((decode bytes).map Glyph.shown)

def glyphs (text : String) : List Glyph := text.toList.map .char

end ProgramModel.Text
