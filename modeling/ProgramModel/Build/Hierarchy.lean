/-
# ProgramModel.Build.Hierarchy -- class hierarchies into a package

Inserting a hierarchy makes a record for every class that has none yet.  Each
method that the class declares is entered into the registry and tagged with its
kind.  For a method with a body that dispatch can reach, the record also lists the
declarations of supertypes from which a call may arrive there: an overridable
declaration of the same selector in a superclass is overridden, one in an
interface is implemented.

A class that has a record is left alone; meeting it under another artifact is
reported.
-/
import ProgramModel.Attribution
import ProgramModel.Build.Supertypes
import ProgramModel.Log
import ProgramModel.Package

namespace ProgramModel

set_option autoImplicit false

def ClassNode.kindOf (node : ClassNode) (method : MethodDeclaration) : MethodKind :=
  if node.isInterface then .interface
  else if method.isAbstract then .abstract
  else .implementation

/-- Whether a declaration can be what a call to a supertype arrives at. -/
def ClassNode.isDispatchTarget (node : ClassNode) (method : MethodDeclaration) : Bool :=
  !node.isInterface && !method.isAbstract && method.isOverridable

/-- The supertypes with the kind of edge that leads from each. -/
def Supertypes.candidates (supertypes : Supertypes) : List (ClassNode × ExpectedKind) :=
  supertypes.superclasses.map (·, .override) ++ supertypes.interfaces.map (·, .implements)

/-- The supertypes that declare a selector so that dispatch can start there. -/
def Supertypes.sources (supertypes : Supertypes) (selector : String) :
    List (ClassNode × ExpectedKind) :=
  supertypes.candidates.filter fun candidate =>
    match candidate.1.declares? selector with
    | some declared => declared.isOverridable
    | none => false

namespace Package

/-- A class under construction: the registry so far and the record so far. -/
structure Draft where
  methods : MethodRegistry
  record : ClassRecord

/-- Enter one expected call to a method of the class. -/
def Draft.expect (resolver : ArtifactResolver) (selector : String) (target : MethodId)
    (draft : Draft) (candidate : ClassNode × ExpectedKind) : Draft :=
  let (source, methods) := resolver.resolve draft.methods (candidate.1.methodReference selector)
  { methods
    record := { draft.record with
      expectedCalls := draft.record.expectedCalls.insert ⟨source, target, candidate.2⟩ } }

/-- Enter one declared method of the class. -/
def Draft.declare (resolver : ArtifactResolver) (node : ClassNode) (supertypes : Supertypes)
    (draft : Draft) (method : MethodDeclaration) : Draft :=
  let (target, methods) := resolver.resolve draft.methods (node.methodReference method.selector)
  let entered : Draft :=
    { methods := methods.tagKind target (node.kindOf method)
      record := { draft.record with methods := draft.record.methods.insert method.selector } }
  if node.isDispatchTarget method then
    (supertypes.sources method.selector).foldl (Draft.expect resolver method.selector target)
      entered
  else entered

/-- The record of a class before any of its methods is entered. -/
def blankRecord (resolver : ArtifactResolver) (node : ClassNode) : ClassRecord where
  artifact := resolver.ofClass node.reference
  name := node.qualifiedName
  superclass := node.superclassName
  interfaces := SortedSet.ofList node.interfaceNames
  isPublic := node.modifiers.isPublic
  isPrivate := node.modifiers.isPrivate
  isInterface := node.modifiers.isInterface
  isAbstract := node.modifiers.isAbstract

/-- The record of a class, and the registry with the methods that it mentions. -/
def draftClass (resolver : ArtifactResolver) (hierarchy : ClassHierarchy) (node : ClassNode)
    (methods : MethodRegistry) : Draft :=
  node.methods.foldl (Draft.declare resolver node (hierarchy.supertypes node))
    ⟨methods, blankRecord resolver node⟩

/-- The package with a class, and whether the class is new. -/
def insertClass (resolver : ArtifactResolver) (hierarchy : ClassHierarchy) (package : Package)
    (node : ClassNode) : Logged (Package × Bool) :=
  match package.classRecord? node.qualifiedName with
  | some kept =>
      let artifact := resolver.ofClass node.reference
      ⟨(package, false),
        if kept.artifact = artifact then []
        else [.classClash node.qualifiedName kept.artifact artifact]⟩
  | none =>
      let draft := draftClass resolver hierarchy node package.methods
      ⟨({ package with methods := draft.methods }.addClassRecord draft.record, true), []⟩

/-- The package with some of a hierarchy's classes, and how many of them are new. -/
def insertClasses (resolver : ArtifactResolver) (hierarchy : ClassHierarchy) :
    List ClassNode → Package → Logged (Package × Nat)
  | [], package => pure (package, 0)
  | node :: rest, package => do
      let (package, new) ← insertClass resolver hierarchy package node
      let (package, count) ← insertClasses resolver hierarchy rest package
      pure (package, new.toNat + count)

/-- The package with a hierarchy, and how many of its classes are new. -/
def insertHierarchy (resolver : ArtifactResolver) (hierarchy : ClassHierarchy)
    (package : Package) : Logged (Package × Nat) := do
  let (package, inserted) ← insertClasses resolver hierarchy hierarchy.classes package
  Logged.report (.hierarchyInserted inserted hierarchy.classes.length package.methods.size)
  pure (package, inserted)

end Package

end ProgramModel
