/-
# ProgramModel.Sink -- where text is written to, and what happens when it fails

A sink takes bytes until it is full, and its flush may fail.  A write that does
not fit is taken as far as it fits and then fails.  `Writing` is the effect of
writing: the bytes taken so far stay taken when a later step fails.
-/
import ProgramModel.Text.Utf8

namespace ProgramModel

set_option autoImplicit false

/-- Why a sink fails. -/
inductive SinkFault where
  | full
  | flush
  deriving DecidableEq, Repr

/-- The wording of each fault. -/
def SinkFault.message : SinkFault → String
  | .full => "sink is full"
  | .flush => "flush failed"

/-- A sink: how many more bytes it takes, if there is a limit, and whether its flush fails. -/
structure Sink where
  room : Option Nat := none
  flushFails : Bool := false
  deriving DecidableEq, Repr, Inhabited

/-- What writing came to: the bytes taken, and the result unless it failed. -/
structure Writing (ε α : Type) where
  accepted : List UInt8
  result : Except ε α

namespace Writing

variable {ε φ α β : Type}

instance : Monad (Writing ε) where
  pure value := ⟨[], .ok value⟩
  bind first next :=
    match first.result with
    | .error fault => ⟨first.accepted, .error fault⟩
    | .ok value => ⟨first.accepted ++ (next value).accepted, (next value).result⟩

/-- The same writing with its fault seen as another. -/
def mapFault (change : ε → φ) (writing : Writing ε α) : Writing φ α :=
  ⟨writing.accepted, writing.result.mapError change⟩

end Writing

namespace Sink

def write (sink : Sink) (chunk : List UInt8) : Writing SinkFault Sink :=
  match sink.room with
  | none => ⟨chunk, .ok sink⟩
  | some room =>
      if chunk.length ≤ room then ⟨chunk, .ok { sink with room := some (room - chunk.length) }⟩
      else ⟨chunk.take room, .error .full⟩

/-- Write chunks of text one after another. -/
def writeAll (sink : Sink) : List (List Char) → Writing SinkFault Sink
  | [] => pure sink
  | chunk :: rest => do (← sink.write (Text.encode chunk)).writeAll rest

def flush (sink : Sink) : Writing SinkFault Unit :=
  ⟨[], if sink.flushFails then .error .flush else .ok ()⟩

end Sink

end ProgramModel
