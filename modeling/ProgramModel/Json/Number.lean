/-
# ProgramModel.Json.Number -- numbers in a JSON text

A number is a sign, whole digits without a needless zero, and optionally a
fraction and an exponent.  `Numeral.scan` takes one off the front of a text.

What the numeral is worth matters only where it stands in place of something
else and a message has to show it.  A numeral without fraction and exponent that
fits 64 bits is an integer.  For any other, the digits are gathered into a 64-bit
significand for as long as they fit, and the significand is scaled by a power of
ten in floating point; a result that is not finite is out of range.
-/
import ProgramModel.Json.Fault
import ProgramModel.Text.Utf8

namespace ProgramModel.Json

set_option autoImplicit false

open Text (Glyph)

/-! ## Numerals -/

/-- The exponent of a numeral. -/
structure Exponent where
  isNegative : Bool
  digits : List Nat

/-- A number as it is written. -/
structure Numeral where
  isNegative : Bool
  whole : List Nat
  fraction : Option (List Nat)
  exponent : Option Exponent

def digit? : Glyph → Option Nat
  | .char c => if '0' ≤ c ∧ c ≤ '9' then some (c.toNat - '0'.toNat) else none
  | .malformed _ => none

/-- The digits at the front, and what follows them. -/
def takeDigits : List Glyph → List Nat × List Glyph
  | [] => ([], [])
  | glyph :: rest =>
      match digit? glyph with
      | some digit =>
          let (digits, after) := takeDigits rest
          (digit :: digits, after)
      | none => ([], glyph :: rest)

/-- Why no numeral stands at the front: something else does, or the text ends. -/
inductive NumeralFault where
  | wrong
  | ended

/-- The fault for what follows where a digit is needed. -/
def NumeralFault.at : List Glyph → NumeralFault
  | [] => .ended
  | _ :: _ => .wrong

/-- Digits, of which there has to be one. -/
def someDigits (text : List Glyph) : Except NumeralFault (List Nat × List Glyph) :=
  match takeDigits text with
  | ([], after) => .error (.at after)
  | (digits, after) => .ok (digits, after)

/-- The whole part: a zero alone, or digits that do not begin with one. -/
def scanWhole (text : List Glyph) : Except NumeralFault (List Nat × List Glyph) :=
  match someDigits text with
  | .ok (0 :: _ :: _, _) => .error .wrong
  | other => other

/-- The fraction, if a point follows. -/
def scanFraction : List Glyph → Except NumeralFault (Option (List Nat) × List Glyph)
  | .char '.' :: rest => (someDigits rest).map fun (digits, after) => (some digits, after)
  | glyphs => .ok (none, glyphs)

/-- The digits of an exponent after its sign. -/
def scanExponentDigits (isNegative : Bool) (text : List Glyph) :
    Except NumeralFault (Option Exponent × List Glyph) :=
  (someDigits text).map fun (digits, after) => (some ⟨isNegative, digits⟩, after)

/-- An exponent after its letter. -/
def scanSignedExponent : List Glyph → Except NumeralFault (Option Exponent × List Glyph)
  | .char '+' :: rest => scanExponentDigits false rest
  | .char '-' :: rest => scanExponentDigits true rest
  | glyphs => scanExponentDigits false glyphs

/-- The exponent, if one follows. -/
def scanExponent : List Glyph → Except NumeralFault (Option Exponent × List Glyph)
  | .char 'e' :: rest => scanSignedExponent rest
  | .char 'E' :: rest => scanSignedExponent rest
  | glyphs => .ok (none, glyphs)

/-- The numeral at the front of a text, after its sign. -/
def Numeral.scanUnsigned (isNegative : Bool) (text : List Glyph) :
    Except NumeralFault (Numeral × List Glyph) := do
  let (whole, glyphs) ← scanWhole text
  let (fraction, glyphs) ← scanFraction glyphs
  let (exponent, glyphs) ← scanExponent glyphs
  return (⟨isNegative, whole, fraction, exponent⟩, glyphs)

/-- The numeral at the front of a text. -/
def Numeral.scan : List Glyph → Except NumeralFault (Numeral × List Glyph)
  | .char '-' :: rest => Numeral.scanUnsigned true rest
  | glyphs => Numeral.scanUnsigned false glyphs

/-! ## Values -/

/-- Gather digits into a significand of 64 bits.  Gives the significand and how many of the digits
it holds; the first that would overflow it ends the gathering. -/
def gather (significand : Nat) : List Nat → Nat × Nat
  | [] => (significand, 0)
  | digit :: rest =>
      if significand * 10 + digit < UInt64.size then
        let (result, held) := gather (significand * 10 + digit) rest
        (result, held + 1)
      else (significand, 0)

def powerOfTen (exponent : Nat) : Float := Float.ofScientific 1 false exponent

/-- A significand times a power of ten, in steps that a power of ten can represent; `none` when the
result is not finite.  After three steps of 10^308 every significand has become zero. -/
def scale (significand : Float) (exponent : Int) : Nat → Option Float
  | 0 => some significand
  | steps + 1 =>
      if exponent.natAbs ≤ 308 then
        if 0 ≤ exponent then
          let result := significand * powerOfTen exponent.natAbs
          if result.isInf then none else some result
        else some (significand / powerOfTen exponent.natAbs)
      else if significand == 0.0 then some significand
      else if 0 ≤ exponent then none
      else scale (significand / powerOfTen 308) (exponent + 308) steps

/-- The end of the non-negative numbers of 32 bits with a sign. -/
def signedEnd : Nat := 0x80000000

/-- The exponent of 32 bits with a sign that is closest to a number. -/
def clampExponent (exponent : Int) : Int :=
  if exponent < -(signedEnd : Int) then -(signedEnd : Int)
  else if (signedEnd : Int) ≤ exponent then (signedEnd : Int) - 1
  else exponent

/-- What a numeral is worth as a floating-point number. -/
def Numeral.decimal? (numeral : Numeral) : Option Float :=
  let (significand, held) := gather 0 numeral.whole
  let dropped := numeral.whole.length - held
  let (significand, fractional) := gather significand (numeral.fraction.getD [])
  let start : Int := (dropped : Int) - fractional
  let signed (magnitude : Float) : Float := if numeral.isNegative then -magnitude else magnitude
  let magnitude := significand.toUInt64.toFloat
  match numeral.exponent with
  | none => (scale magnitude start 5).map signed
  | some exponent =>
      let amount : Nat := exponent.digits.foldl (fun value digit => value * 10 + digit) 0
      if signedEnd ≤ amount then
        if significand ≠ 0 ∧ !exponent.isNegative then none else some (signed 0.0)
      else
        let total := clampExponent (if exponent.isNegative then start - amount else start + amount)
        (scale magnitude total 5).map signed

/-- What a numeral is worth, as a message would show it. -/
def Numeral.worth (numeral : Numeral) : Except Fault Found :=
  let isInteger := numeral.fraction.isNone && numeral.exponent.isNone
  let value : Nat := numeral.whole.foldl (fun value digit => value * 10 + digit) 0
  if isInteger ∧ !numeral.isNegative ∧ value < UInt64.size then .ok (.integer value)
  else if isInteger ∧ numeral.isNegative ∧ value ≠ 0 ∧ value ≤ 0x8000000000000000 then
    .ok (.integer (-value))
  else match numeral.decimal? with
    | some decimal => .ok (.decimal decimal)
    | none => .error .numberOutOfRange

end ProgramModel.Json
