/-
# ProgramModel.View.Graph -- a package as a graph

Every method of the registry is a vertex, in the order of first sight.  The edges
are the calls, resolved ones first, and then the expected calls class by class.
Calls that dispatch at run time are bold; expected calls are dashed or dotted by
their kind.
-/
import ProgramModel.Package
import ProgramModel.View.Dot

namespace ProgramModel

set_option autoImplicit false

open Dot (Attribute Statement Graph)

/-- The style of a call's edge, if it has one. -/
def CallType.style? : CallType → Option String
  | .interface | .virtual => some "bold"
  | .special | .static | .resolvedDispatch | .unknown => none

def ExpectedKind.style : ExpectedKind → String
  | .implements => "dashed"
  | .override => "dotted"

/-- The vertex of a method: its label, then its metadata. -/
def Method.vertex (method : Method) : Statement :=
  .vertex method.identity.display
    (⟨"label", method.identity.label⟩ ::
      method.metadata.toList.map fun (key, value) => ⟨key, value⟩)

namespace Package

def callEdge (package : Package) (call : Call) : Statement :=
  .edge (package.identity call.source).display (package.identity call.target).display
    (⟨"label", call.type.label⟩ :: call.type.style?.toList.map (⟨"style", ·⟩))

def expectedEdge (package : Package) (call : ExpectedCall) : Statement :=
  .edge (package.identity call.source).display (package.identity call.target).display
    [⟨"label", call.kind.label⟩, ⟨"style", call.kind.style⟩]

/-- The expected calls of all classes, in ascending order of the classes' names. -/
def expectedCalls (package : Package) : List ExpectedCall :=
  package.classRecords.flatMap fun record => record.expectedCalls.toList

def graph (package : Package) (name : String) : Graph where
  name := name
  statements :=
    package.methods.methods.map Method.vertex ++ package.calls.map package.callEdge ++
      package.expectedCalls.map package.expectedEdge

/-! ## The calls that lead out -/

/-- The line of a call: source, target and type. -/
def callLine (package : Package) (call : Call) : List Char :=
  (package.identity call.source).display.toList ++ " \t->\t ".toList ++
    (package.identity call.target).display.toList ++ " :".toList ++ call.type.label.toList ++ ['\n']

/-- The unresolved calls, a line each. -/
def unresolvedLines (package : Package) : List (List Char) :=
  package.unresolvedCalls.toList.map package.callLine

end Package

end ProgramModel
