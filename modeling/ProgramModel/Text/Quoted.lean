/-
# ProgramModel.Text.Quoted -- text between double quotes, for messages

A message quotes a text so that its reader can tell every character: quotes and
backslashes get a backslash, the common controls their short names, and any other
hidden character its code point in hexadecimal between braces.
-/
import ProgramModel.Text.Hidden

namespace ProgramModel.Text

set_option autoImplicit false

def quotedChar (c : Char) : List Char :=
  match c with
  | '"' => ['\\', '"']
  | '\\' => ['\\', '\\']
  | '\t' => ['\\', 't']
  | '\n' => ['\\', 'n']
  | '\r' => ['\\', 'r']
  | '\x00' => ['\\', '0']
  | c =>
      if isHidden c then ['\\', 'u', '\x7b'] ++ Nat.toDigits 16 c.toNat ++ ['\x7d'] else [c]

/-- A text between double quotes. -/
def quoted (text : String) : String :=
  String.ofList ('"' :: text.toList.flatMap quotedChar ++ ['"'])

end ProgramModel.Text
