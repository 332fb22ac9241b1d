/-
# ProgramModel.Scope -- where a type was defined

The engine tags every type with the loader that defined it.  Three of the tags
have a meaning here and are recognised in any case, with blanks around them; any
other tag is kept as it was written.
-/
import ProgramModel.Text.Blank
import ProgramModel.Text.Keyword

namespace ProgramModel

set_option autoImplicit false

/-- The defining loader of a type. -/
inductive Scope where
  /-- Code of the analysed artifacts. -/
  | application
  /-- Code of the platform. -/
  | primordial
  /-- Code of an extension. -/
  | extension
  /-- Anything else, as written. -/
  | other (tag : String)
  deriving DecidableEq, Repr, Inhabited

namespace Scope

/-- The tag of a scope. -/
def text : Scope → String
  | .application => "APPLICATION"
  | .primordial => "PRIMORDIAL"
  | .extension => "EXTENSION"
  | .other tag => tag

instance : ToString Scope := ⟨text⟩

def ofText (tag : String) : Scope :=
  match Text.upper (Text.trim tag) with
  | "APPLICATION" => .application
  | "PRIMORDIAL" => .primordial
  | "EXTENSION" => .extension
  | _ => .other tag

/-- Whether methods of a type of this scope may be attributed to an artifact. -/
def isAttributable : Scope → Bool
  | .application | .primordial => true
  | .extension | .other _ => false

end Scope

end ProgramModel
