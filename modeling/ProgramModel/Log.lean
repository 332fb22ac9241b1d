/-
# ProgramModel.Log -- what a run has to say beside its result

Steps that may have something to report return a `Logged` value: the result
and the events on the way to it, in order.  An event is a fact about the inputs;
its level and its wording are functions of it.
-/
import ProgramModel.Artifact

namespace ProgramModel

set_option autoImplicit false

/-- How loud an event is, loudest first. -/
inductive Level where
  | error
  | warn
  | info
  | debug
  | trace
  deriving DecidableEq, Repr, Inhabited

namespace Level

/-- The level's name as it stands in front of an event. -/
def tag : Level → String
  | .error => "ERROR"
  | .warn => "WARN"
  | .info => "INFO"
  | .debug => "DEBUG"
  | .trace => "TRACE"

def name : Level → String
  | .error => "error"
  | .warn => "warn"
  | .info => "info"
  | .debug => "debug"
  | .trace => "trace"

/-- The place of the level, the loudest first. -/
def rank : Level → Nat
  | .error => 1
  | .warn => 2
  | .info => 3
  | .debug => 4
  | .trace => 5

end Level

/-- What can be reported. -/
inductive Event where
  /-- A call edge names a dispatch that no kind is known for. -/
  | unknownDispatch (spelling : String)
  /-- A class that has a record is met again under another artifact. -/
  | classClash (name : String) (kept other : Option String)
  /-- An artifact is listed that was listed before. -/
  | artifactRepeated (artifact : ArtifactRecord)
  /-- The hierarchy of an artifact is about to be inserted. -/
  | hierarchyStarted (artifact : ArtifactRecord)
  /-- A hierarchy has been inserted. -/
  | hierarchyInserted (inserted total methods : Nat)
  /-- The call graph of an artifact is about to be inserted. -/
  | callGraphStarted (artifact : ArtifactRecord)
  /-- A call graph has been inserted. -/
  | callGraphInserted (inserted total : Nat)
  /-- A package is complete. -/
  | packageBuilt (artifacts classes resolvedCalls unresolvedCalls : Nat)
  /-- A document is about to be written. -/
  | documentWritten (path : String)
  deriving DecidableEq, Repr

namespace Event

/-- How loud each event is. -/
def level : Event → Level
  | .unknownDispatch _ | .classClash .. => .warn
  | .packageBuilt .. | .documentWritten _ => .info
  | _ => .debug

/-- The artifact of a class, or a word for its absence. -/
def artifactOrUnknown : Option String → String
  | some artifact => artifact
  | none => "<unknown>"

/-- The wording of each event. -/
def message : Event → String
  | .unknownDispatch spelling =>
      "Unknown dispatch kind \"" ++ spelling ++ "\", recording as unknown"
  | .classClash name kept other =>
      "Class " ++ name ++ " found in " ++ artifactOrUnknown kept ++ " and " ++
        artifactOrUnknown other ++ ", keeping the first"
  | .artifactRepeated artifact => "Artifact " ++ artifact.coordinate ++ " listed twice"
  | .hierarchyStarted artifact => "Insert class hierarchy for " ++ artifact.coordinate
  | .hierarchyInserted inserted total methods =>
      "Inserted " ++ toString inserted ++ " of " ++ toString total ++ " classes (" ++
        toString methods ++ " methods known)"
  | .callGraphStarted artifact => "Insert call graph for " ++ artifact.coordinate
  | .callGraphInserted inserted total =>
      "Inserted " ++ toString inserted ++ " of " ++ toString total ++ " call edges"
  | .packageBuilt artifacts classes resolvedCalls unresolvedCalls =>
      "Built package: " ++ toString artifacts ++ " artifacts, " ++ toString classes ++
        " classes, " ++ toString resolvedCalls ++ " resolved calls, " ++
        toString unresolvedCalls ++ " unresolved calls"
  | .documentWritten path => "Write " ++ path

end Event

/-- A result and the events on the way to it. -/
structure Logged (α : Type) where
  value : α
  log : List Event := []

namespace Logged

instance : Monad Logged where
  pure value := ⟨value, []⟩
  bind first next :=
    let second := next first.value
    ⟨second.value, first.log ++ second.log⟩

def report (event : Event) : Logged Unit := ⟨(), [event]⟩

@[simp] theorem value_pure {α : Type} (value : α) : (pure value : Logged α).value = value := rfl
@[simp] theorem log_pure {α : Type} (value : α) : (pure value : Logged α).log = [] := rfl
@[simp] theorem value_bind {α β : Type} (first : Logged α) (next : α → Logged β) :
    (first >>= next).value = (next first.value).value := rfl
@[simp] theorem log_bind {α β : Type} (first : Logged α) (next : α → Logged β) :
    (first >>= next).log = first.log ++ (next first.value).log := rfl

theorem ext {α : Type} {left right : Logged α} (values : left.value = right.value)
    (logs : left.log = right.log) : left = right := by
  cases left; cases right; cases values; cases logs; rfl

instance : LawfulMonad Logged := LawfulMonad.mk' Logged
  (fun first => ext rfl (List.append_nil _))
  (fun _ _ => ext rfl (List.nil_append _))
  (fun _ _ _ => ext rfl (List.append_assoc _ _ _))

end Logged

end ProgramModel
