/-
# ProgramModel.Proofs.Routines -- a command as the requests that it makes

Builds of several inputs share one file system, and what one of them asks of it may come
before or after what another one asks.  To say so, a command has to be something that can
stop between two requests.  A `Routine` is: it is done, or it makes a request and goes on
from the answer.

Commands work on any `FileAccess`, so there is nothing to translate.  On `Routine.files` a
build is its own routine, and without a break the routine comes to what the build comes to
on a tree (`performs_buildOne`): each request is served as `FileTree.access` serves it, and
`Performs` is closed under `pure` and `>>=`.
-/
import ProgramModel.Command.Run
import ProgramModel.Files.Tree

namespace ProgramModel

set_option autoImplicit false

/-! ## Requests and routines -/

/-- What a command asks of a file system. -/
inductive FileRequest where
  | read (path : String)
  | isDirectory (path : String)
  | makeDirectory (path : String)
  | write (path : String) (content : List UInt8)

/-- What a request is answered with. -/
def FileRequest.Answer : FileRequest → Type
  | .read _ => Except IoError (List UInt8)
  | .isDirectory _ => Bool
  | .makeDirectory _ => Except IoError Unit
  | .write _ _ => Except IoError Unit

/-- A computation that stops at every request. -/
inductive Routine (α : Type) where
  | done (result : α)
  | ask (request : FileRequest) (next : request.Answer → Routine α)

namespace Routine

variable {α β : Type}

/-- Go on with another routine when this one is done. -/
def andThen : Routine α → (α → Routine β) → Routine β
  | .done result, further => further result
  | .ask request next, further => .ask request fun answer => (next answer).andThen further

instance : Monad Routine where
  pure := .done
  bind := andThen

/-- Operations on files that are requests and nothing else. -/
def files : FileAccess Routine where
  read path := .ask (.read path) .done
  isDirectory path := .ask (.isDirectory path) .done
  makeDirectory path := .ask (.makeDirectory path) .done
  write path content := .ask (.write path content) .done

end Routine

/-! ## Running them -/

/-- The answer of a tree to a request, and the tree after it. -/
def FileTree.serve (tree : FileTree) : (request : FileRequest) → request.Answer × FileTree
  | .read path => (access.read path).run tree
  | .isDirectory path => (access.isDirectory path).run tree
  | .makeDirectory path => (access.makeDirectory path).run tree
  | .write path content => (access.write path content).run tree

namespace Routine

variable {α β : Type}

/-- What a routine comes to on a tree that nothing else changes. -/
def runOn : Routine α → FileTree → α × FileTree
  | .done result, tree => (result, tree)
  | .ask request next, tree =>
      let (answer, later) := tree.serve request
      (next answer).runOn later

theorem runOn_bind (routine : Routine α) (further : α → Routine β) (tree : FileTree) :
    (routine >>= further).runOn tree =
      let (result, later) := routine.runOn tree
      (further result).runOn later := by
  induction routine generalizing tree with
  | done result => rfl
  | ask request next ih => exact ih _ _

/-- The routine comes to what the action comes to, on every tree. -/
def Performs (routine : Routine α) (action : StateM FileTree α) : Prop :=
  ∀ tree, routine.runOn tree = action.run tree

theorem performs_pure (result : α) : Performs (pure result) (pure result) := fun _ => rfl

theorem Performs.bind {routine : Routine α} {action : StateM FileTree α}
    {further : α → Routine β} {next : α → StateM FileTree β} (first : routine.Performs action)
    (second : ∀ result, (further result).Performs (next result)) :
    (routine >>= further).Performs (action >>= next) := by
  intro tree
  rw [runOn_bind, StateT.run_bind, first tree]
  exact second _ _

/-! ## Commands -/

open FileTree

theorem performs_settle (directory : String) (made : Except IoError Unit) :
    (files.settle directory made).Performs (access.settle directory made) := by
  cases made with
  | ok => exact performs_pure _
  | error error =>
      refine Performs.bind (fun _ => rfl) ?_
      intro present
      cases present <;> exact performs_pure _

theorem performs_makeDirectories (directories : List String) :
    (files.makeDirectories directories).Performs (access.makeDirectories directories) := by
  induction directories with
  | nil => exact performs_pure _
  | cons directory outer ih =>
      refine Performs.bind (fun _ => rfl) ?_
      intro made
      split
      · refine ih.bind ?_
        intro around
        cases around with
        | error error => exact performs_pure _
        | ok => exact Performs.bind (fun _ => rfl) fun again => performs_settle directory again
      · exact performs_settle directory made

/-- **Without a break, the routine of a build is the build.** -/
theorem performs_buildOne (layout : Json.Layout) (input output : String) :
    (buildOne files layout input output).Performs (buildOne access layout input output) := by
  refine Performs.bind (fun _ => rfl) ?_
  intro content
  split
  · exact performs_pure _
  · refine (performs_makeDirectories _).bind ?_
    intro made
    cases made with
    | error cause => exact performs_pure _
    | ok =>
        refine Performs.bind (fun _ => rfl) ?_
        intro written
        cases written <;> exact performs_pure _

end Routine

end ProgramModel
