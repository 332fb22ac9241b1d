/-
# ProgramModel.Format.Document -- the written form of documents

An artifact or superclass that a method or class does not have is left out of the
text.  Everything else is always written; a reader may leave out what has a
default.
-/
import ProgramModel.Document
import ProgramModel.Format.Analysis

namespace ProgramModel.Format

set_option autoImplicit false

/-- A call type, by its label. -/
def callType : Format CallType where
  schema := .label CallType.labels
  ofValue place := pure (CallType.ofRank place)
  toValue type := type.rank

/-- A method, by what it is known by. -/
def method : Format MethodIdentity where
  schema := .record "MethodDocument"
    (.cons "namespace" .text .required <| .cons "symbol" .text .required <|
      .cons "artifact" (optional text).schema .elided .nil)
  ofValue := fun (owner, symbol, artifact, _) => do
    let artifact ← (optional text).ofValue artifact
    pure ⟨owner, symbol, artifact⟩
  toValue identity :=
    (identity.owner, identity.symbol, (optional text).toValue identity.artifact, ⟨⟩)

/-- An expected call, by the methods at its ends. -/
def expectedEntry : Format ExpectedEntry where
  schema := .record "ExpectedCallDocument"
    (.cons "source" method.schema .required <| .cons "target" method.schema .required .nil)
  ofValue := fun (source, target, _) => do
    let source ← method.ofValue source
    let target ← method.ofValue target
    pure ⟨source, target⟩
  toValue entry := (method.toValue entry.source, method.toValue entry.target, ⟨⟩)

/-- A call, by the methods at its ends and its type. -/
def callEntry : Format CallEntry where
  schema := .record "CallDocument"
    (.cons "source" method.schema .required <| .cons "target" method.schema .required <|
      .cons "callType" callType.schema .required .nil)
  ofValue := fun (source, target, place, _) => do
    let source ← method.ofValue source
    let target ← method.ofValue target
    let type ← callType.ofValue place
    pure ⟨source, target, type⟩
  toValue entry :=
    (method.toValue entry.source, method.toValue entry.target, callType.toValue entry.type, ⟨⟩)

/-- A class, with what it declares and the calls that are expected into it. -/
def classEntry : Format ClassEntry where
  schema := .record "ClassRecordDocument"
    (.cons "artifact" (optional text).schema .elided <|
      .cons "name" .text .required <|
      .cons "superClass" (optional text).schema .elided <|
      .cons "interfaces" (set text).schema .defaulted <|
      .cons "methods" (set text).schema .defaulted <|
      .cons "expectedCalls" (set expectedEntry).schema .defaulted <|
      .cons "public" .flag .defaulted <| .cons "private" .flag .defaulted <|
      .cons "interface" .flag .defaulted <| .cons "abstract" .flag .defaulted .nil)
  ofValue := fun (artifact, name, superclass, interfaces, methods, expected, isPublic, isPrivate,
      isInterface, isAbstract, _) => do
    let artifact ← (optional text).ofValue artifact
    let superclass ← (optional text).ofValue superclass
    let interfaces ← (set text).ofValue interfaces
    let methods ← (set text).ofValue methods
    let expectedCalls ← (set expectedEntry).ofValue expected
    pure { artifact, name, superclass, interfaces, methods, expectedCalls, isPublic, isPrivate,
           isInterface, isAbstract }
  toValue entry :=
    ((optional text).toValue entry.artifact, entry.name, (optional text).toValue entry.superclass,
      (set text).toValue entry.interfaces, (set text).toValue entry.methods,
      (set expectedEntry).toValue entry.expectedCalls, entry.isPublic, entry.isPrivate,
      entry.isInterface, entry.isAbstract, ⟨⟩)

/-- A document: its four sets, each of which may be left out. -/
def document : Format Document where
  schema := .record "PackageDocument"
    (.cons "artifacts" (set artifact).schema .defaulted <|
      .cons "classRecords" (set classEntry).schema .defaulted <|
      .cons "resolvedCalls" (set callEntry).schema .defaulted <|
      .cons "unresolvedCalls" (set callEntry).schema .defaulted .nil)
  ofValue := fun (artifacts, classes, resolved, unresolved, _) => do
    let artifacts ← (set artifact).ofValue artifacts
    let classes ← (set classEntry).ofValue classes
    let resolvedCalls ← (set callEntry).ofValue resolved
    let unresolvedCalls ← (set callEntry).ofValue unresolved
    pure { artifacts, classes, resolvedCalls, unresolvedCalls }
  toValue document :=
    ((set artifact).toValue document.artifacts, (set classEntry).toValue document.classes,
      (set callEntry).toValue document.resolvedCalls,
      (set callEntry).toValue document.unresolvedCalls, ⟨⟩)

end ProgramModel.Format
