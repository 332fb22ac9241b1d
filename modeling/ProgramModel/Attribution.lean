/-
# ProgramModel.Attribution -- which artifact ships a class or a method

A resolver is a fixed function from references to artifacts.  A method is
attributed to an artifact when its declaring type is of a scope that may be
attributed and the resolver knows the artifact; otherwise it stays unresolved,
which is an ordinary outcome and no fault.
-/
import ProgramModel.Method.Registry
import ProgramModel.Reference

namespace ProgramModel

set_option autoImplicit false

/-- Maps types and methods to the artifact that ships them. -/
structure ArtifactResolver where
  ofClass : TypeReference → Option String
  ofMethod : MethodReference → Option String

namespace ArtifactResolver

/-- The resolver that knows no artifact. -/
def unknowing : ArtifactResolver := ⟨fun _ => none, fun _ => none⟩

/-- The resolver that knows one artifact, with everything in it. -/
def owning (artifact : String) : ArtifactResolver where
  ofClass _ := some artifact
  ofMethod _ := some artifact

end ArtifactResolver

/-! ## Resolvers from a table of classes -/

/-- Artifact ids by the dotted name of a class. -/
structure ArtifactIndex where
  classes : SortedMap String String := ∅

namespace ArtifactIndex

/-- The index with one more class; the name is taken as it is. -/
def insert (index : ArtifactIndex) (name artifact : String) : ArtifactIndex :=
  ⟨index.classes.insert name artifact⟩

/-- The index of a table whose keys are spellings of class names.  When two keys spell one name,
the later key counts. -/
def ofTable (table : SortedMap String String) : ArtifactIndex :=
  table.toList.foldl (fun index entry => index.insert (qualifiedName entry.1) entry.2) {}

/-- The number of classes. -/
def size (index : ArtifactIndex) : Nat := index.classes.size

def ofClass (index : ArtifactIndex) (type : TypeReference) : Option String :=
  index.classes.get? type.qualifiedName

/-- The resolver that finds a method's artifact under its declaring type. -/
def resolver (index : ArtifactIndex) : ArtifactResolver where
  ofClass := index.ofClass
  ofMethod method := index.ofClass method.declaringClass

/-- The resolver that asks a table of single methods first, by dotted name and selector. -/
def resolverWith (index : ArtifactIndex) (methods : SortedMap String String) :
    ArtifactResolver where
  ofClass := index.ofClass
  ofMethod method :=
    match methods.get? (method.owner ++ "." ++ method.selector) with
    | some artifact => some artifact
    | none => index.ofClass method.declaringClass

end ArtifactIndex

/-! ## Identities -/

namespace ArtifactResolver

def artifactOf (resolver : ArtifactResolver) (method : MethodReference) : Option String :=
  if method.declaringClass.scope.isAttributable then resolver.ofMethod method else none

/-- What a method is known by under this resolver. -/
def identify (resolver : ArtifactResolver) (method : MethodReference) : MethodIdentity :=
  ⟨method.owner, method.selector, resolver.artifactOf method⟩

/-- The id of a method, entered on first sight. -/
def resolve (resolver : ArtifactResolver) (registry : MethodRegistry) (method : MethodReference) :
    MethodId × MethodRegistry :=
  registry.intern (resolver.identify method)

end ArtifactResolver

end ProgramModel
