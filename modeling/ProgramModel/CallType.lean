/-
# ProgramModel.CallType -- how a call is dispatched, in the input and in the model

The engine that analyses an artifact names the dispatch of a call site in one of
several spellings; `DispatchKind` is what they mean.  The model records a
`CallType`, whose labels are part of the written document.
-/
import ProgramModel.Sorted.Order
import ProgramModel.Text.Blank
import ProgramModel.Text.Keyword

namespace ProgramModel

set_option autoImplicit false

/-! ## Call types of the model -/

/-- How a recorded call is dispatched; the constructors stand in the order in which calls
that differ in nothing else are listed. -/
inductive CallType where
  | interface
  | virtual
  | special
  | static
  | resolvedDispatch
  | unknown
  deriving DecidableEq, Repr, Inhabited

namespace CallType

def all : List CallType := [.interface, .virtual, .special, .static, .resolvedDispatch, .unknown]

def label : CallType → String
  | .interface => "INTERFACE"
  | .virtual => "VIRTUAL"
  | .special => "SPECIAL"
  | .static => "STATIC"
  | .resolvedDispatch => "RESOLVED"
  | .unknown => "UNKNOWN"

/-- The labels in the order of the call types. -/
def labels : List String := all.map label

/-- The place of a call type in `all`. -/
def rank : CallType → Fin labels.length
  | .interface => ⟨0, by decide⟩
  | .virtual => ⟨1, by decide⟩
  | .special => ⟨2, by decide⟩
  | .static => ⟨3, by decide⟩
  | .resolvedDispatch => ⟨4, by decide⟩
  | .unknown => ⟨5, by decide⟩

def ofRank (place : Fin labels.length) : CallType := all[place.val]

theorem ofRank_rank (type : CallType) : ofRank type.rank = type := by cases type <;> rfl

theorem rank_injective {left right : CallType} (same : left.rank = right.rank) : left = right := by
  rw [← ofRank_rank left, same, ofRank_rank]

/-- Call types ascend by their place. -/
instance : Ord CallType := ⟨compareOn rank⟩

instance : Std.TransOrd CallType := inferInstanceAs (Std.TransCmp (compareOn rank))

instance : Std.LawfulEqOrd CallType where
  compare_self {a} := @Std.ReflCmp.compare_self _ (compareOn rank) _ a
  eq_of_compare equal := rank_injective (compareOn_eq equal)

instance : ToString CallType := ⟨label⟩

end CallType

/-! ## Dispatch kinds of the input -/

/-- How the engine reports that a call site is dispatched. -/
inductive DispatchKind where
  | interface
  | virtual
  | special
  | static
  | resolved
  | unknown
  deriving DecidableEq, Repr, Inhabited

namespace DispatchKind

/-- The canonical spelling. -/
def text : DispatchKind → String
  | .interface => "interface"
  | .virtual => "virtual"
  | .special => "special"
  | .static => "static"
  | .resolved => "resolved"
  | .unknown => "unknown"

def callType : DispatchKind → CallType
  | .interface => .interface
  | .virtual => .virtual
  | .special => .special
  | .static => .static
  | .resolved => .resolvedDispatch
  | .unknown => .unknown

/-- A keyword without a leading `invoke`. -/
def withoutInvoke (keyword : List Char) : List Char :=
  if "invoke".toList.isPrefixOf keyword then keyword.drop "invoke".length else keyword

/-- The kind that a spelling names: in any case, with blanks around it, and with or without
a leading `invoke`.  Other spellings name none. -/
def ofText? (spelling : String) : Option DispatchKind :=
  match String.ofList (withoutInvoke (Text.lower (Text.trim spelling)).toList) with
  | "interface" => some .interface
  | "virtual" => some .virtual
  | "special" => some .special
  | "static" => some .static
  | "resolved" => some .resolved
  | "resolved_dispatch" => some .resolved
  | _ => none

end DispatchKind

end ProgramModel
