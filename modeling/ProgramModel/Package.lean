/-
# ProgramModel.Package -- the program model

A package joins what was learnt about a set of artifacts: the artifacts, one
record per class, the calls between methods, and the registry that the ids in
records and calls point into.  A call is resolved when its target is attributed
to an artifact; the dispatch of the call plays no part in that.

The operations here put one artifact, one class record or one call in.  The first
record of a class is kept, and a call that is there already is not new.
-/
import ProgramModel.Artifact
import ProgramModel.CallType
import ProgramModel.Method.Registry
import ProgramModel.Sorted.Set

namespace ProgramModel

set_option autoImplicit false

/-! ## Calls -/

/-- A call from one method to another. -/
structure Call where
  source : MethodId
  target : MethodId
  type : CallType
  deriving DecidableEq, Repr, Inhabited

namespace Call

/-- Calls ascend by source, then target, then type. -/
instance : Ord Call where
  compare := compareLex (compareOn source) (compareLex (compareOn target) (compareOn type))

instance : Std.TransOrd Call :=
  inferInstanceAs (Std.TransCmp
    (compareLex (compareOn source) (compareLex (compareOn target) (compareOn type))))

instance : Std.LawfulEqOrd Call where
  compare_self {a} := @Std.ReflCmp.compare_self _
    (compareLex (compareOn source) (compareLex (compareOn target) (compareOn type))) _ a
  eq_of_compare {a b} equal := by
    obtain ⟨sources, rest⟩ := compareLex_eq equal
    obtain ⟨targets, types⟩ := compareLex_eq rest
    cases a; cases b
    cases compareOn_eq sources; cases compareOn_eq targets; cases compareOn_eq types
    rfl

end Call

/-! ## Expected calls -/

/-- Why a declaration may stand in for another at run time. -/
inductive ExpectedKind where
  /-- A class implements a method of an interface. -/
  | implements
  /-- A class overrides a method of a superclass. -/
  | override
  deriving DecidableEq, Repr, Inhabited

namespace ExpectedKind

def label : ExpectedKind → String
  | .implements => "IMPLEMENTS"
  | .override => "OVERRIDE"

/-- The place of a kind in the order. -/
def rank : ExpectedKind → Nat
  | .implements => 0
  | .override => 1

instance : Ord ExpectedKind := ⟨compareOn rank⟩

instance : Std.TransOrd ExpectedKind := inferInstanceAs (Std.TransCmp (compareOn rank))

instance : Std.LawfulEqOrd ExpectedKind where
  compare_self {a} := @Std.ReflCmp.compare_self _ (compareOn rank) _ a
  eq_of_compare {a b} equal := by
    have ranks := compareOn_eq equal
    cases a <;> cases b <;> first | rfl | cases ranks

end ExpectedKind

/-- A call to `source` may arrive at `target`, whether or not it ever does. -/
structure ExpectedCall where
  source : MethodId
  target : MethodId
  kind : ExpectedKind
  deriving DecidableEq, Repr, Inhabited

namespace ExpectedCall

/-- Expected calls ascend by source, then target, then kind. -/
instance : Ord ExpectedCall where
  compare := compareLex (compareOn source) (compareLex (compareOn target) (compareOn kind))

instance : Std.TransOrd ExpectedCall :=
  inferInstanceAs (Std.TransCmp
    (compareLex (compareOn source) (compareLex (compareOn target) (compareOn kind))))

instance : Std.LawfulEqOrd ExpectedCall where
  compare_self {a} := @Std.ReflCmp.compare_self _
    (compareLex (compareOn source) (compareLex (compareOn target) (compareOn kind))) _ a
  eq_of_compare {a b} equal := by
    obtain ⟨sources, rest⟩ := compareLex_eq equal
    obtain ⟨targets, kinds⟩ := compareLex_eq rest
    cases a; cases b
    cases compareOn_eq sources; cases compareOn_eq targets; cases compareOn_eq kinds
    rfl

end ExpectedCall

/-! ## Classes -/

/-- What the model keeps of a class. -/
structure ClassRecord where
  /-- The artifact that ships the class, if any does. -/
  artifact : Option String
  /-- The dotted name. -/
  name : String
  superclass : Option String := none
  interfaces : SortedSet String := ∅
  /-- The selectors that the class declares. -/
  methods : SortedSet String := ∅
  /-- The calls to declarations of supertypes that may arrive at a method of this class. -/
  expectedCalls : SortedSet ExpectedCall := ∅
  isPublic : Bool := false
  isPrivate : Bool := false
  isInterface : Bool := false
  isAbstract : Bool := false
  deriving DecidableEq, Inhabited

/-! ## Packages -/

/-- The program model of a set of artifacts. -/
structure Package where
  artifacts : SortedSet ArtifactRecord := ∅
  /-- The class records by the dotted name of the class. -/
  classes : SortedMap String ClassRecord := ∅
  resolvedCalls : SortedSet Call := ∅
  unresolvedCalls : SortedSet Call := ∅
  /-- The methods that the ids in records and calls name. -/
  methods : MethodRegistry := ∅

namespace Package

instance : Inhabited Package := ⟨{}⟩

def addArtifact (package : Package) (artifact : ArtifactRecord) : Package :=
  { package with artifacts := package.artifacts.insert artifact }

def classRecord? (package : Package) (name : String) : Option ClassRecord :=
  package.classes.get? name

/-- The class records, in ascending order of their names. -/
def classRecords (package : Package) : List ClassRecord := package.classes.values

/-- The package with a record for a class that has none. -/
def addClassRecord (package : Package) (record : ClassRecord) : Package :=
  { package with classes := package.classes.insert record.name record }

/-- Whether a method is attributed to an artifact; an id that names no method is not. -/
def isResolved (package : Package) (id : MethodId) : Bool :=
  ((package.methods.get? id).map fun method => method.identity.isResolved).getD false

/-- Whether a call is new to the half of the calls that its target belongs to. -/
def isNewCall (package : Package) (call : Call) : Bool :=
  if package.isResolved call.target then !package.resolvedCalls.contains call
  else !package.unresolvedCalls.contains call

/-- The package with one more call, in the half that its target belongs to. -/
def addCall (package : Package) (call : Call) : Package :=
  if package.isResolved call.target then
    { package with resolvedCalls := package.resolvedCalls.insert call }
  else { package with unresolvedCalls := package.unresolvedCalls.insert call }

/-- The calls, resolved ones first. -/
def calls (package : Package) : List Call :=
  package.resolvedCalls.toList ++ package.unresolvedCalls.toList

/-- What the method at an id is known by. -/
def identity (package : Package) (id : MethodId) : MethodIdentity := package.methods.identity id

end Package

end ProgramModel
