/-
# ProgramModel.TypeName -- the two spellings of a type's name, and the one it is known by

Class files spell a type internally, `Lcom/example/A;` or `Lcom/example/A`; people
write `com.example.A`.  A name is internal when it is wrapped as `L...;` or holds
a slash.  `qualifiedName` gives the dotted name that both spellings share.  A
slash-free name without the closing `;` is already dotted, so `LMain` is a class
of that name and `LMain;` is the class `Main`.
-/
import ProgramModel.Text.Blank

namespace ProgramModel

set_option autoImplicit false

namespace TypeName

/-- The characters between `L` and `;`, when there are any. -/
def unwrap? : List Char → Option (List Char)
  | 'L' :: rest =>
      if rest.getLast? = some ';' ∧ rest.dropLast ≠ [] then some rest.dropLast else none
  | _ => none

/-- Slashes read as dots. -/
def dotted (name : List Char) : List Char :=
  name.map fun c => if c = '/' then '.' else c

/-- The name without an `L` in front. -/
def withoutMarker : List Char → List Char
  | 'L' :: rest => rest
  | name => name

/-- The dotted name of a spelling that has no blanks around it. -/
def normalize (name : List Char) : List Char :=
  match unwrap? name with
  | some inner => dotted inner
  | none => if '/' ∈ name then dotted (withoutMarker name) else name

end TypeName

/-- The dotted name of a type, from any of its spellings. -/
def qualifiedName (spelling : String) : String :=
  String.ofList (TypeName.normalize (Text.trimChars spelling.toList))

end ProgramModel
