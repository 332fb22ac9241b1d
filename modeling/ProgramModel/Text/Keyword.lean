/-
# ProgramModel.Text.Keyword -- comparing text with an ASCII keyword in any case

A keyword is recognised in any mixture of cases, by the case maps of Unicode.
Only a few characters outside ASCII have an ASCII letter as their upper or lower
case; the two maps here list them.  Every other character keeps itself, which no
ASCII keyword contains, so for such a comparison the maps are the full ones.
-/
namespace ProgramModel.Text

set_option autoImplicit false

/-- The uppercase of a character, when that is made of ASCII letters only; otherwise the
character itself. -/
def asciiUpper (c : Char) : List Char :=
  match c.toNat with
  | 0xDF => ['S', 'S']
  | 0x131 => ['I']
  | 0x17F => ['S']
  | 0xFB00 => ['F', 'F']
  | 0xFB01 => ['F', 'I']
  | 0xFB02 => ['F', 'L']
  | 0xFB03 => ['F', 'F', 'I']
  | 0xFB04 => ['F', 'F', 'L']
  | 0xFB05 => ['S', 'T']
  | 0xFB06 => ['S', 'T']
  | _ => [c.toUpper]

/-- The lowercase of a character, when that is an ASCII letter; otherwise the character itself. -/
def asciiLower (c : Char) : Char :=
  if c.toNat = 0x212A then 'k' else c.toLower

/-- A text in upper case, exact wherever the result is ASCII. -/
def upper (text : String) : String := String.ofList (text.toList.flatMap asciiUpper)

/-- A text in lower case, exact wherever the result is ASCII. -/
def lower (text : String) : String := String.ofList (text.toList.map asciiLower)

end ProgramModel.Text
