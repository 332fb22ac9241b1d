/-
# ProgramModel.Method.Basic -- methods and what makes two of them the same

A method is known by its declaring type, its symbol (name and descriptor) and
the artifact it is attributed to, if it is attributed to any.  A method with an
artifact is *resolved*.  Beside its identity a method carries metadata, an open
map of text to text; the hierarchy writes the declared kind there.
-/
import ProgramModel.Sorted.Map

namespace ProgramModel

set_option autoImplicit false

/-- What a method is known by. -/
structure MethodIdentity where
  owner : String
  symbol : String
  artifact : Option String
  deriving DecidableEq, Repr, Inhabited

namespace MethodIdentity

/-- Identities ascend by declaring type, then symbol, then artifact, with no artifact first. -/
instance : Ord MethodIdentity where
  compare := compareLex (compareOn owner) (compareLex (compareOn symbol) (compareOn artifact))

instance : Std.TransOrd MethodIdentity :=
  inferInstanceAs (Std.TransCmp
    (compareLex (compareOn owner) (compareLex (compareOn symbol) (compareOn artifact))))

instance : Std.LawfulEqOrd MethodIdentity where
  compare_self {a} := @Std.ReflCmp.compare_self _
    (compareLex (compareOn owner) (compareLex (compareOn symbol) (compareOn artifact))) _ a
  eq_of_compare {a b} equal := by
    obtain ⟨owners, rest⟩ := compareLex_eq equal
    obtain ⟨symbols, artifacts⟩ := compareLex_eq rest
    cases a; cases b
    cases compareOn_eq owners; cases compareOn_eq symbols; cases compareOn_eq artifacts
    rfl

/-- Whether the method is attributed to an artifact. -/
def isResolved (identity : MethodIdentity) : Bool := identity.artifact.isSome

/-- The declaring type and the symbol, joined by a dot. -/
def label (identity : MethodIdentity) : String := identity.owner ++ "." ++ identity.symbol

/-- The id of a method in text: `artifact::owner.symbol`, or `owner.symbol` without an artifact. -/
def display (identity : MethodIdentity) : String :=
  match identity.artifact with
  | some artifact => artifact ++ "::" ++ identity.label
  | none => identity.label

instance : ToString MethodIdentity := ⟨display⟩

end MethodIdentity

/-- What a declaration says about the method's body. -/
inductive MethodKind where
  /-- Declared by an interface. -/
  | interface
  /-- Declared by a class, without a body. -/
  | abstract
  /-- Declared by a class, with a body. -/
  | implementation
  deriving DecidableEq, Repr, Inhabited

/-- The name of a kind in metadata. -/
def MethodKind.text : MethodKind → String
  | .interface => "INTERFACE"
  | .abstract => "ABSTRACT"
  | .implementation => "IMPLEMENTATION"

/-- What is noted about a method. -/
abbrev Metadata := SortedMap String String

/-- The key under which metadata holds the declared kind. -/
def Metadata.kindKey : String := "type"

/-- A method with its metadata. -/
structure Method where
  identity : MethodIdentity
  metadata : Metadata := ∅
  deriving DecidableEq, Inhabited

/-- The declared kind, if one has been noted. -/
def Method.kind (method : Method) : Option String := method.metadata.get? Metadata.kindKey

end ProgramModel
