/-
# ProgramModel.ClassHierarchy -- classes and what they declare

A class hierarchy lists the class nodes that the engine reached in one artifact.
Nodes refer to their supertypes by name only, so a supertype may be missing, may
be listed twice, or may lead back to where one started.  Of several nodes with
one name the last is the one that a look-up finds.
-/
import ProgramModel.Reference

namespace ProgramModel

set_option autoImplicit false

structure ClassModifiers where
  isPublic : Bool := false
  isPrivate : Bool := false
  isInterface : Bool := false
  isAbstract : Bool := false
  deriving DecidableEq, Repr, Inhabited

/-- A method that a class declares itself. -/
structure MethodDeclaration where
  selector : String
  isAbstract : Bool := false
  isStatic : Bool := false
  isPrivate : Bool := false
  deriving DecidableEq, Repr, Inhabited

namespace MethodDeclaration

/-- Whether the selector is that of an initializer, of an object or of a class. -/
def isInitializer (method : MethodDeclaration) : Bool :=
  "<init>".toList.isPrefixOf method.selector.toList ||
    "<clinit>".toList.isPrefixOf method.selector.toList

/-- Whether virtual dispatch can lead from this declaration to one in a subtype. -/
def isOverridable (method : MethodDeclaration) : Bool :=
  !method.isStatic && !method.isPrivate && !method.isInitializer

end MethodDeclaration

/-- One class of a hierarchy. -/
structure ClassNode where
  reference : TypeReference
  superclass : Option TypeReference := none
  interfaces : List TypeReference := []
  methods : List MethodDeclaration := []
  modifiers : ClassModifiers := {}
  deriving DecidableEq, Repr, Inhabited

namespace ClassNode

def qualifiedName (node : ClassNode) : String := node.reference.qualifiedName

def superclassName (node : ClassNode) : Option String :=
  node.superclass.map TypeReference.qualifiedName

/-- The dotted names of the interfaces, as listed. -/
def interfaceNames (node : ClassNode) : List String :=
  node.interfaces.map TypeReference.qualifiedName

def isInterface (node : ClassNode) : Bool := node.modifiers.isInterface

def methodReference (node : ClassNode) (selector : String) : MethodReference :=
  ⟨node.reference, selector⟩

/-- The first declaration of a selector. -/
def declares? (node : ClassNode) (selector : String) : Option MethodDeclaration :=
  node.methods.find? (fun method => method.selector == selector)

end ClassNode

/-- The classes of one artifact. -/
structure ClassHierarchy where
  classes : List ClassNode := []
  deriving DecidableEq, Repr, Inhabited

namespace ClassHierarchy

/-- The names of the classes, as listed. -/
def names (hierarchy : ClassHierarchy) : List String :=
  hierarchy.classes.map ClassNode.qualifiedName

/-- The last node with a name. -/
def find? (hierarchy : ClassHierarchy) (name : String) : Option ClassNode :=
  hierarchy.classes.reverse.find? (fun node => node.qualifiedName == name)

theorem qualifiedName_of_find? {hierarchy : ClassHierarchy} {name : String} {node : ClassNode}
    (found : hierarchy.find? name = some node) : node.qualifiedName = name := by
  simpa using List.find?_some found

theorem mem_of_find? {hierarchy : ClassHierarchy} {name : String} {node : ClassNode}
    (found : hierarchy.find? name = some node) : node ∈ hierarchy.classes := by
  simpa using List.mem_of_find?_eq_some found

theorem mem_names_of_find? {hierarchy : ClassHierarchy} {name : String} {node : ClassNode}
    (found : hierarchy.find? name = some node) : name ∈ hierarchy.names :=
  List.mem_map.mpr ⟨node, mem_of_find? found, qualifiedName_of_find? found⟩

end ClassHierarchy

end ProgramModel
