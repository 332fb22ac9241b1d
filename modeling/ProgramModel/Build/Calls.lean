/-
# ProgramModel.Build.Calls -- call graphs into a package

Both ends of a call edge are looked up in the registry, so that an end which the
hierarchy declared under the same attribution is the method that it declared.
The calls of a package are a set: an edge that is met again adds nothing.
-/
import ProgramModel.Attribution
import ProgramModel.CallGraph
import ProgramModel.Log
import ProgramModel.Package

namespace ProgramModel

set_option autoImplicit false

namespace Package

/-- The package with a call edge, and whether the call is new. -/
def insertEdge (resolver : ArtifactResolver) (package : Package) (edge : CallEdge) :
    Package × Bool :=
  let (source, methods) := resolver.resolve package.methods edge.caller
  let (target, methods) := resolver.resolve methods edge.callee
  let package := { package with methods }
  let call : Call := ⟨source, target, edge.dispatch.callType⟩
  (package.addCall call, package.isNewCall call)

/-- The package with call edges, and how many of the calls are new. -/
def insertEdges (resolver : ArtifactResolver) : List CallEdge → Package → Package × Nat
  | [], package => (package, 0)
  | edge :: rest, package =>
      let (package, new) := insertEdge resolver package edge
      let (package, count) := insertEdges resolver rest package
      (package, new.toNat + count)

/-- The package with a call graph, and how many of its calls are new. -/
def insertCallGraph (resolver : ArtifactResolver) (graph : CallGraph) (package : Package) :
    Logged (Package × Nat) := do
  let (package, inserted) := insertEdges resolver graph.edges package
  Logged.report (.callGraphInserted inserted graph.edges.length)
  pure (package, inserted)

end Package

end ProgramModel
