/-
# ProgramModel.Document -- a package as it is exchanged

A document holds the same facts as a package without its registry: where a package
has the id of a method, a document has what the method is known by.  All its
collections are sets, so two documents are equal exactly when they say the same,
in whatever order and however often a text said it.
-/
import ProgramModel.Package

namespace ProgramModel

set_option autoImplicit false

/-! ## Entries -/

/-- An expected call of a document.  What kind it is of is not exchanged. -/
structure ExpectedEntry where
  source : MethodIdentity
  target : MethodIdentity
  deriving DecidableEq, Inhabited

namespace ExpectedEntry

/-- Expected calls ascend by source, then target. -/
instance : Ord ExpectedEntry where
  compare := compareLex (compareOn source) (compareOn target)

instance : Std.TransOrd ExpectedEntry :=
  inferInstanceAs (Std.TransCmp (compareLex (compareOn source) (compareOn target)))

instance : Std.LawfulEqOrd ExpectedEntry where
  compare_self {a} := @Std.ReflCmp.compare_self _
    (compareLex (compareOn source) (compareOn target)) _ a
  eq_of_compare {a b} equal := by
    obtain ⟨sources, targets⟩ := compareLex_eq equal
    cases a; cases b
    cases compareOn_eq sources; cases compareOn_eq targets
    rfl

end ExpectedEntry

/-- A call of a document. -/
structure CallEntry where
  source : MethodIdentity
  target : MethodIdentity
  type : CallType
  deriving DecidableEq, Inhabited

namespace CallEntry

/-- Calls ascend by source, then target, then type. -/
instance : Ord CallEntry where
  compare := compareLex (compareOn source) (compareLex (compareOn target) (compareOn type))

instance : Std.TransOrd CallEntry :=
  inferInstanceAs (Std.TransCmp
    (compareLex (compareOn source) (compareLex (compareOn target) (compareOn type))))

instance : Std.LawfulEqOrd CallEntry where
  compare_self {a} := @Std.ReflCmp.compare_self _
    (compareLex (compareOn source) (compareLex (compareOn target) (compareOn type))) _ a
  eq_of_compare {a b} equal := by
    obtain ⟨sources, rest⟩ := compareLex_eq equal
    obtain ⟨targets, types⟩ := compareLex_eq rest
    cases a; cases b
    cases compareOn_eq sources; cases compareOn_eq targets; cases compareOn_eq types
    rfl

end CallEntry

/-- A class of a document. -/
structure ClassEntry where
  artifact : Option String
  name : String
  superclass : Option String
  interfaces : SortedSet String
  methods : SortedSet String
  expectedCalls : SortedSet ExpectedEntry
  isPublic : Bool
  isPrivate : Bool
  isInterface : Bool
  isAbstract : Bool
  deriving DecidableEq, Inhabited

namespace ClassEntry

/-- Classes ascend by artifact, then name, then the other fields in their order. -/
def order : ClassEntry → ClassEntry → Ordering :=
  compareLex (compareOn artifact) <| compareLex (compareOn name) <|
    compareLex (compareOn superclass) <| compareLex (compareOn interfaces) <|
    compareLex (compareOn methods) <| compareLex (compareOn expectedCalls) <|
    compareLex (compareOn isPublic) <| compareLex (compareOn isPrivate) <|
    compareLex (compareOn isInterface) (compareOn isAbstract)

instance : Ord ClassEntry := ⟨order⟩

instance : Std.TransCmp order := by unfold order; infer_instance

instance : Std.TransOrd ClassEntry := inferInstanceAs (Std.TransCmp order)

instance : Std.LawfulEqOrd ClassEntry where
  compare_self {a} := @Std.ReflCmp.compare_self _ order _ a
  eq_of_compare {a b} equal := by
    obtain ⟨artifacts, equal⟩ := compareLex_eq equal
    obtain ⟨names, equal⟩ := compareLex_eq equal
    obtain ⟨superclasses, equal⟩ := compareLex_eq equal
    obtain ⟨interfaces, equal⟩ := compareLex_eq equal
    obtain ⟨methods, equal⟩ := compareLex_eq equal
    obtain ⟨expected, equal⟩ := compareLex_eq equal
    obtain ⟨publics, equal⟩ := compareLex_eq equal
    obtain ⟨privates, equal⟩ := compareLex_eq equal
    obtain ⟨interfaceFlags, abstracts⟩ := compareLex_eq equal
    cases a; cases b
    cases compareOn_eq artifacts; cases compareOn_eq names; cases compareOn_eq superclasses
    cases compareOn_eq interfaces; cases compareOn_eq methods; cases compareOn_eq expected
    cases compareOn_eq publics; cases compareOn_eq privates
    cases compareOn_eq interfaceFlags; cases compareOn_eq abstracts
    rfl

end ClassEntry

/-! ## Documents -/

/-- A package as it is exchanged. -/
structure Document where
  artifacts : SortedSet ArtifactRecord := ∅
  classes : SortedSet ClassEntry := ∅
  resolvedCalls : SortedSet CallEntry := ∅
  unresolvedCalls : SortedSet CallEntry := ∅
  deriving DecidableEq, Inhabited

namespace Package

/-- A call with the methods in place of their ids. -/
def callEntry (package : Package) (call : Call) : CallEntry where
  source := package.identity call.source
  target := package.identity call.target
  type := call.type

/-- An expected call with the methods in place of their ids. -/
def expectedEntry (package : Package) (call : ExpectedCall) : ExpectedEntry where
  source := package.identity call.source
  target := package.identity call.target

/-- A class record with the methods in place of their ids. -/
def classEntry (package : Package) (record : ClassRecord) : ClassEntry where
  artifact := record.artifact
  name := record.name
  superclass := record.superclass
  interfaces := record.interfaces
  methods := record.methods
  expectedCalls := SortedSet.ofList (record.expectedCalls.toList.map package.expectedEntry)
  isPublic := record.isPublic
  isPrivate := record.isPrivate
  isInterface := record.isInterface
  isAbstract := record.isAbstract

def document (package : Package) : Document where
  artifacts := package.artifacts
  classes := SortedSet.ofList (package.classRecords.map package.classEntry)
  resolvedCalls := SortedSet.ofList (package.resolvedCalls.toList.map package.callEntry)
  unresolvedCalls := SortedSet.ofList (package.unresolvedCalls.toList.map package.callEntry)

end Package

/-- The number of expected calls of all classes. -/
def Document.expectedCallCount (document : Document) : Nat :=
  document.classes.toList.foldr (fun entry count => entry.expectedCalls.size + count) 0

end ProgramModel
