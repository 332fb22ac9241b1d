/-
# ProgramModel.Reference -- references to types and methods

A reference says how the input names a type or a method.  It is not an identity:
two spellings of one name are different references to the same type.
-/
import ProgramModel.Scope
import ProgramModel.TypeName

namespace ProgramModel

set_option autoImplicit false

/-- A type as the input names it, with the scope that defined it. -/
structure TypeReference where
  name : String
  scope : Scope
  deriving DecidableEq, Repr, Inhabited

def TypeReference.qualifiedName (type : TypeReference) : String :=
  ProgramModel.qualifiedName type.name

/-- A method as the input names it: the declaring type, and the method's name and descriptor. -/
structure MethodReference where
  declaringClass : TypeReference
  selector : String
  deriving DecidableEq, Repr, Inhabited

/-- The dotted name of the declaring type. -/
def MethodReference.owner (method : MethodReference) : String :=
  method.declaringClass.qualifiedName

end ProgramModel
