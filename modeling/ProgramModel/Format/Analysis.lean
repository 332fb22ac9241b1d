/-
# ProgramModel.Format.Analysis -- the written form of bundles and their parts

Names of fields are those of the exchange format.  Scopes and dispatch kinds are
written as texts; they are read in any spelling and written in the canonical one.
-/
import ProgramModel.Analysis
import ProgramModel.Format.Basic

namespace ProgramModel.Format

set_option autoImplicit false

/-- A scope, by its tag. -/
def scope : Format Scope where
  schema := .text
  ofValue tag := pure (Scope.ofText tag)
  toValue scope := scope.text

/-- A dispatch kind, by its spelling; a spelling that names none is reported. -/
def dispatch : Format DispatchKind where
  schema := .text
  ofValue spelling :=
    match DispatchKind.ofText? spelling with
    | some kind => pure kind
    | none => do
        Logged.report (.unknownDispatch spelling)
        pure .unknown
  toValue kind := kind.text

/-- An artifact, by the three parts of its coordinate. -/
def artifact : Format ArtifactRecord where
  schema := .record "ArtifactRecord"
    (.cons "group" .text .required <| .cons "name" .text .required <|
      .cons "version" .text .required .nil)
  ofValue := fun (group, name, version, _) => pure ⟨group, name, version⟩
  toValue artifact := (artifact.group, artifact.name, artifact.version, ⟨⟩)

/-- A reference to a type, with the name in the spelling that was given. -/
def typeReference : Format TypeReference where
  schema := .record "TypeReference"
    (.cons "name" .text .required <| .cons "scope" scope.schema .required .nil)
  ofValue := fun (name, tag, _) => do
    let scope ← scope.ofValue tag
    pure ⟨name, scope⟩
  toValue type := (type.name, scope.toValue type.scope, ⟨⟩)

/-- A reference to a method, with the type that it is declared in. -/
def methodReference : Format MethodReference where
  schema := .record "MethodReference"
    (.cons "declaringClass" typeReference.schema .required <|
      .cons "selector" .text .required .nil)
  ofValue := fun (declaringClass, selector, _) => do
    let declaringClass ← typeReference.ofValue declaringClass
    pure ⟨declaringClass, selector⟩
  toValue method := (typeReference.toValue method.declaringClass, method.selector, ⟨⟩)

/-- The modifiers of a class; those that are not listed do not hold. -/
def modifiers : Format ClassModifiers where
  schema := .record "ClassModifiers"
    (.cons "public" .flag .defaulted <| .cons "private" .flag .defaulted <|
      .cons "interface" .flag .defaulted <| .cons "abstract" .flag .defaulted .nil)
  ofValue := fun (isPublic, isPrivate, isInterface, isAbstract, _) =>
    pure { isPublic, isPrivate, isInterface, isAbstract }
  toValue modifiers :=
    (modifiers.isPublic, modifiers.isPrivate, modifiers.isInterface, modifiers.isAbstract, ⟨⟩)

/-- A declared method; the modifiers that are not listed do not hold. -/
def methodDeclaration : Format MethodDeclaration where
  schema := .record "MethodDeclaration"
    (.cons "selector" .text .required <| .cons "abstract" .flag .defaulted <|
      .cons "static" .flag .defaulted <| .cons "private" .flag .defaulted .nil)
  ofValue := fun (selector, isAbstract, isStatic, isPrivate, _) =>
    pure { selector, isAbstract, isStatic, isPrivate }
  toValue method :=
    (method.selector, method.isAbstract, method.isStatic, method.isPrivate, ⟨⟩)

/-- A class; all but its reference may be left out. -/
def classNode : Format ClassNode where
  schema := .record "ClassNode"
    (.cons "reference" typeReference.schema .required <|
      .cons "superclass" (optional typeReference).schema .defaulted <|
      .cons "interfaces" (list typeReference).schema .defaulted <|
      .cons "methods" (list methodDeclaration).schema .defaulted <|
      .cons "modifiers" modifiers.schema .defaulted .nil)
  ofValue := fun (reference, superclass, interfaces, methods, flags, _) => do
    let reference ← typeReference.ofValue reference
    let superclass ← (optional typeReference).ofValue superclass
    let interfaces ← (list typeReference).ofValue interfaces
    let methods ← (list methodDeclaration).ofValue methods
    let modifiers ← modifiers.ofValue flags
    pure { reference, superclass, interfaces, methods, modifiers }
  toValue node :=
    (typeReference.toValue node.reference, (optional typeReference).toValue node.superclass,
      (list typeReference).toValue node.interfaces, (list methodDeclaration).toValue node.methods,
      modifiers.toValue node.modifiers, ⟨⟩)

/-- The classes of a hierarchy, in their order. -/
def classHierarchy : Format ClassHierarchy where
  schema := .record "ClassHierarchy" (.cons "classes" (list classNode).schema .defaulted .nil)
  ofValue := fun (classes, _) => do
    let classes ← (list classNode).ofValue classes
    pure { classes }
  toValue hierarchy := ((list classNode).toValue hierarchy.classes, ⟨⟩)

/-- A call, with the dispatch that was reported for it. -/
def callEdge : Format CallEdge where
  schema := .record "CallEdge"
    (.cons "caller" methodReference.schema .required <|
      .cons "callee" methodReference.schema .required <|
      .cons "dispatch" dispatch.schema .required .nil)
  ofValue := fun (caller, callee, kind, _) => do
    let caller ← methodReference.ofValue caller
    let callee ← methodReference.ofValue callee
    let dispatch ← dispatch.ofValue kind
    pure { caller, callee, dispatch }
  toValue edge :=
    (methodReference.toValue edge.caller, methodReference.toValue edge.callee,
      dispatch.toValue edge.dispatch, ⟨⟩)

/-- The calls of a call graph, in their order. -/
def callGraph : Format CallGraph where
  schema := .record "CallGraph" (.cons "edges" (list callEdge).schema .defaulted .nil)
  ofValue := fun (edges, _) => do
    let edges ← (list callEdge).ofValue edges
    pure { edges }
  toValue graph := ((list callEdge).toValue graph.edges, ⟨⟩)

/-- What is known about an artifact; the hierarchy and the call graph may be missing. -/
def analysis : Format ArtifactAnalysis where
  schema := .record "ArtifactAnalysis"
    (.cons "artifact" artifact.schema .required <|
      .cons "hierarchy" (optional classHierarchy).schema .defaulted <|
      .cons "callGraph" (optional callGraph).schema .defaulted .nil)
  ofValue := fun (record, classes, calls, _) => do
    let artifact ← artifact.ofValue record
    let hierarchy ← (optional classHierarchy).ofValue classes
    let callGraph ← (optional callGraph).ofValue calls
    pure { artifact, hierarchy, callGraph }
  toValue analysis :=
    (artifact.toValue analysis.artifact, (optional classHierarchy).toValue analysis.hierarchy,
      (optional callGraph).toValue analysis.callGraph, ⟨⟩)

/-- A bundle: the artifacts of classes, and the analyses in their order. -/
def bundle : Format AnalysisBundle where
  schema := .record "AnalysisBundle"
    (.cons "classArtifacts" table.schema .defaulted <|
      .cons "analyses" (list analysis).schema .defaulted .nil)
  ofValue := fun (entries, analyses, _) => do
    let classArtifacts ← table.ofValue entries
    let analyses ← (list analysis).ofValue analyses
    pure { classArtifacts, analyses }
  toValue bundle :=
    (table.toValue bundle.classArtifacts, (list analysis).toValue bundle.analyses, ⟨⟩)

end ProgramModel.Format
