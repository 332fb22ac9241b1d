/-
# ProgramModel.CallGraph -- call edges as the engine reports them
-/
import ProgramModel.CallType
import ProgramModel.Reference

namespace ProgramModel

set_option autoImplicit false

/-- One call that the engine found reachable. -/
structure CallEdge where
  caller : MethodReference
  callee : MethodReference
  dispatch : DispatchKind
  deriving DecidableEq, Repr, Inhabited

/-- The call edges of one artifact. -/
structure CallGraph where
  edges : List CallEdge := []
  deriving DecidableEq, Repr, Inhabited

end ProgramModel
