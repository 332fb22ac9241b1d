/-
# ProgramModel.Proofs.FailingSinks -- what a sink holds that failed in the middle of a view

A view is written in many pieces, and a sink may fail inside any of them.  Writing pieces is
writing their text (`Sink.writeAll_eq_write`), so it is enough to follow a few long writes: a
text and its flush, or the body of a document, its ending and its flush.

What comes of bytes in a sink is said without steps by `Sink.delivery`: the sink holds as many
of the bytes as it has room for, and the error depends on how many these are.  Every view is
delivered that way (`View.write_eq_delivery`).  So a failing sink holds a prefix of what a sink
without a limit holds, and the error changes where the body of a document ends and where the
whole text ends (`failing_sink_holds_prefix`).
-/
import ProgramModel.Proofs.Exchange

namespace ProgramModel

set_option autoImplicit false

/-! ## One text -/

namespace Sink

/-- What comes of bytes that are written to a sink with so much room, which is flushed in the end.
`blame` names the error of a fault behind so many of the bytes. -/
def delivery (blame : Nat → SinkFault → WriteError) (bytes : List UInt8) (room : Nat)
    (flushFails : Bool) : Writing WriteError Unit where
  accepted := bytes.take room
  result :=
    if room < bytes.length then .error (blame room .full)
    else if flushFails then .error (blame bytes.length .flush)
    else .ok ()

variable {bytes : List UInt8} {room : Nat} {flushFails : Bool}

/-- The sink holds the bytes up to where there is no more room, or no more of them. -/
theorem accepted_delivery (blame : Nat → SinkFault → WriteError) :
    (delivery blame bytes room flushFails).accepted = bytes.take (min room bytes.length) := by
  rw [delivery, List.take_eq_take_iff]
  omega

theorem delivery_eq_ok_iff {blame : Nat → SinkFault → WriteError} :
    (delivery blame bytes room flushFails).result = .ok () ↔
      bytes.length ≤ room ∧ flushFails = false := by
  by_cases full : room < bytes.length
  · simp only [delivery, if_pos full]
    simp only [reduceCtorEq, false_iff]
    omega
  · have fits : bytes.length ≤ room := by omega
    simp only [delivery, if_neg full]
    cases flushFails <;> simp [fits]

/-- **All the errors of a delivery**: the bytes do not fit, or they do and the flush fails. -/
theorem delivery_eq_error_iff {blame : Nat → SinkFault → WriteError} {fault : WriteError} :
    (delivery blame bytes room flushFails).result = .error fault ↔
      (room < bytes.length ∧ blame room .full = fault) ∨
      (bytes.length ≤ room ∧ flushFails = true ∧ blame bytes.length .flush = fault) := by
  by_cases full : room < bytes.length
  · have misfit : ¬ bytes.length ≤ room := by omega
    simp only [delivery, if_pos full]
    simp [full, misfit]
  · have fits : bytes.length ≤ room := by omega
    simp only [delivery, if_neg full]
    cases flushFails <;> simp [full, fits]

theorem write_of_fits (fits : bytes.length ≤ room) :
    (⟨some room, flushFails⟩ : Sink).write bytes =
      ⟨bytes, .ok ⟨some (room - bytes.length), flushFails⟩⟩ := by
  rw [write_of_room, if_pos fits]

theorem write_of_exceeds (exceeds : room < bytes.length) :
    (⟨some room, flushFails⟩ : Sink).write bytes = ⟨bytes.take room, .error .full⟩ := by
  rw [write_of_room, if_neg (by omega)]

/-- Bytes that are written and flushed are delivered; all faults are named alike. -/
theorem write_flush_eq_delivery (name : SinkFault → WriteError) (bytes : List UInt8) (room : Nat)
    (flushFails : Bool) :
    (((⟨some room, flushFails⟩ : Sink).write bytes).mapFault name >>=
        fun sink => sink.flush.mapFault name) =
      delivery (fun _ => name) bytes room flushFails := by
  unfold delivery
  by_cases fits : bytes.length ≤ room
  · have notFull : ¬ room < bytes.length := by omega
    rw [write_of_fits fits, if_neg notFull, List.take_of_length_le fits]
    show Writing.mk (bytes ++ []) _ = _
    rw [List.append_nil]
    cases flushFails <;> rfl
  · have exceeds : room < bytes.length := by omega
    rw [write_of_exceeds exceeds, if_pos exceeds]
    rfl

/-- Bytes that fit are delivered whole, and those behind them in the room that is left. -/
theorem delivery_append {more : List UInt8} (fits : bytes.length ≤ room)
    (blame : Nat → SinkFault → WriteError) :
    delivery blame (bytes ++ more) room flushFails =
      let rest := delivery (fun taken => blame (bytes.length + taken)) more
        (room - bytes.length) flushFails
      ⟨bytes ++ rest.accepted, rest.result⟩ := by
  have place : bytes.length + (room - bytes.length) = room := by omega
  have boundary : room < bytes.length + more.length ↔ room - bytes.length < more.length := by omega
  simp only [delivery, List.take_append, List.take_of_length_le fits, List.length_append, place,
    boundary]

/-- Where not even the first bytes fit, those behind them play no part. -/
theorem delivery_of_exceeds {more : List UInt8} (exceeds : room < bytes.length)
    (blame : Nat → SinkFault → WriteError) :
    delivery blame (bytes ++ more) room flushFails =
      ⟨bytes.take room, .error (blame room .full)⟩ := by
  have full : room < (bytes ++ more).length := by
    rw [List.length_append]
    omega
  have rest : room - bytes.length = 0 := by omega
  simp only [delivery, if_pos full, List.take_append, rest, List.take_zero, List.append_nil]

end Sink

/-! ## Views -/

/-- Lines are delivered, with one error for all faults. -/
theorem writeLines_eq_delivery (lines : List (List Char)) (room : Nat) (flushFails : Bool) :
    writeLines lines ⟨some room, flushFails⟩ =
      Sink.delivery (fun _ => .text) (Text.encode lines.flatten) room flushFails := by
  unfold writeLines
  rw [Sink.writeAll_eq_write]
  exact Sink.write_flush_eq_delivery .text _ room flushFails

theorem writeLines_unlimited (lines : List (List Char)) :
    (writeLines lines {}).result = .ok () ∧
      (writeLines lines {}).accepted = Text.encode lines.flatten := by
  unfold writeLines
  rw [Sink.writeAll_eq_write]
  exact ⟨rfl, List.append_nil _⟩

namespace Document

variable (document : Document) (layout : Json.Layout)

/-- The bytes of a document in front of the line break that it ends in. -/
def bodyBytes : List UInt8 := Text.encode (document.pieces layout).flatten

/-- The error of a document that a sink fails behind so many bytes: the body or its ending. -/
def errorAt (taken : Nat) (cause : SinkFault) : WriteError :=
  if taken < (document.bodyBytes layout).length then .body cause else .ending cause

variable {document layout} in
theorem errorAt_eq_body_iff {taken : Nat} {cause other : SinkFault} :
    document.errorAt layout taken cause = .body other ↔
      taken < (document.bodyBytes layout).length ∧ cause = other := by
  unfold errorAt
  by_cases inside : taken < (document.bodyBytes layout).length
  · simp [inside]
  · simp [inside]

variable {document layout} in
theorem errorAt_eq_ending_iff {taken : Nat} {cause other : SinkFault} :
    document.errorAt layout taken cause = .ending other ↔
      ¬ taken < (document.bodyBytes layout).length ∧ cause = other := by
  unfold errorAt
  by_cases inside : taken < (document.bodyBytes layout).length
  · simp [inside]
  · simp [inside]

theorem encode_chars :
    Text.encode (document.chars layout) = document.bodyBytes layout ++ Text.encode ['\n'] := by
  simp only [chars, bodyBytes, Text.encode, List.flatMap_append]

/-- **The errors of a document that is delivered**: the body does not fit, the line break behind it
does not fit, or all of it fits and the flush fails. -/
theorem error_delivery_iff (room : Nat) (flushFails : Bool) :
    let result := (Sink.delivery (document.errorAt layout) (Text.encode (document.chars layout))
      room flushFails).result
    (result = .error (.body .full) ↔ room < (document.bodyBytes layout).length) ∧
      (result = .error (.ending .full) ↔ room = (document.bodyBytes layout).length) ∧
      (result = .error (.ending .flush) ↔
        (document.bodyBytes layout).length < room ∧ flushFails = true) := by
  intro result
  have ending : (Text.encode ['\n']).length = 1 := rfl
  have length : (Text.encode (document.chars layout)).length =
      (document.bodyBytes layout).length + 1 := by
    rw [encode_chars, List.length_append, ending]
  have late : ¬ (document.bodyBytes layout).length + 1 < (document.bodyBytes layout).length := by
    omega
  simp only [result, Sink.delivery_eq_error_iff, errorAt_eq_body_iff, errorAt_eq_ending_iff, length]
  refine ⟨?_, ?_, ?_⟩
  · simp only [and_true, reduceCtorEq, and_false, or_false]
    omega
  · simp only [and_true, reduceCtorEq, and_false, or_false]
    omega
  · simp only [late, reduceCtorEq, and_false, false_or, not_false_eq_true, and_true,
      Nat.add_one_le_iff]

/-- **A document is delivered, and its error says whether the body was complete.** -/
theorem write_eq_delivery (room : Nat) (flushFails : Bool) :
    document.write layout ⟨some room, flushFails⟩ =
      Sink.delivery (document.errorAt layout) (Text.encode (document.chars layout)) room
        flushFails := by
  have steps : document.write layout ⟨some room, flushFails⟩ =
      ((⟨some room, flushFails⟩ : Sink).write (document.bodyBytes layout)).mapFault
        WriteError.body >>= fun sink =>
          (sink.write (Text.encode ['\n'])).mapFault WriteError.ending >>= fun sink =>
            sink.flush.mapFault WriteError.ending := by
    unfold write
    simp only [Sink.writeAll_eq_write]
    rfl
  rw [steps, encode_chars]
  by_cases fits : (document.bodyBytes layout).length ≤ room
  · -- Behind the body there is only the ending left to blame.
    have late : (fun taken => document.errorAt layout
        ((document.bodyBytes layout).length + taken)) = fun _ => WriteError.ending := by
      funext taken cause
      exact if_neg (by omega)
    rw [Sink.delivery_append fits, late, ← Sink.write_flush_eq_delivery, Sink.write_of_fits fits]
    rfl
  · have exceeds : room < (document.bodyBytes layout).length := by omega
    rw [Sink.delivery_of_exceeds exceeds, errorAt, if_pos exceeds, Sink.write_of_exceeds exceeds]
    rfl

end Document

namespace View

variable (view : View) (package : Package)

/-- The error of a view that a sink fails behind so many bytes. -/
def errorAt (taken : Nat) (cause : SinkFault) : WriteError :=
  match view with
  | .document layout => package.document.errorAt layout taken cause
  | .graph _ => .text cause
  | .unresolved => .text cause

theorem chars_document (layout : Json.Layout) :
    (View.document layout).chars package = package.document.chars layout := by
  simp [View.chars, pieces, Document.chars]

/-- **A view is delivered.** -/
theorem write_eq_delivery (room : Nat) (flushFails : Bool) :
    view.write package ⟨some room, flushFails⟩ =
      Sink.delivery (view.errorAt package) (Text.encode (view.chars package)) room flushFails := by
  cases view with
  | document layout =>
      rw [chars_document]
      exact package.document.write_eq_delivery layout room flushFails
  | graph name => exact writeLines_eq_delivery _ room flushFails
  | unresolved => exact writeLines_eq_delivery _ room flushFails

/-- A sink without a limit takes the whole text. -/
theorem write_unlimited :
    (view.write package {}).result = .ok () ∧
      (view.write package {}).accepted = Text.encode (view.chars package) := by
  cases view with
  | document layout =>
      have goes := package.document.result_write_unlimited layout
      refine ⟨goes, ?_⟩
      rw [chars_document]
      exact Document.accepted_write_of_ok goes
  | graph name => exact writeLines_unlimited (package.graph name).lines
  | unresolved => exact writeLines_unlimited package.unresolvedLines

end View

/-- **A failing sink holds a prefix of the text, and the error says where it stopped.**  Into a
sink with room for so many bytes any view delivers as many bytes of the text that a sink without a
limit takes.  Writing succeeds exactly when the text fits and the flush does not fail.  Otherwise a
document blames its body when that does not fit, and its ending when only the last line break does
not fit or only the flush fails; a text passes on the fault of the sink or of its flush. -/
theorem failing_sink_holds_prefix (view : View) (package : Package) (room : Nat)
    (flushFails : Bool) :
    let text := (view.write package {}).accepted
    let written := view.write package ⟨some room, flushFails⟩
    (view.write package {}).result = .ok () ∧ text = Text.encode (view.chars package) ∧
    written.accepted = text.take (min room text.length) ∧
    (written.result = .ok () ↔ text.length ≤ room ∧ flushFails = false) ∧
    match view with
    | .document layout =>
        let body := package.document.bodyBytes layout
        text = body ++ Text.encode ['\n'] ∧
        (written.result = .error (.body .full) ↔ room < body.length) ∧
        (written.result = .error (.ending .full) ↔ room = body.length) ∧
        (written.result = .error (.ending .flush) ↔ body.length < room ∧ flushFails = true)
    | _ =>
        (written.result = .error (.text .full) ↔ room < text.length) ∧
        (written.result = .error (.text .flush) ↔ text.length ≤ room ∧ flushFails = true) := by
  intro text written
  obtain ⟨goes, whole⟩ := view.write_unlimited package
  have delivered : written = Sink.delivery (view.errorAt package) text room flushFails := by
    show _ = Sink.delivery _ (view.write package {}).accepted _ _
    rw [whole, ← view.write_eq_delivery]
  refine ⟨goes, whole, ?_, ?_, ?_⟩
  · rw [delivered]
    exact Sink.accepted_delivery _
  · rw [delivered]
    exact Sink.delivery_eq_ok_iff
  · cases view with
    | document layout =>
        have errors := package.document.error_delivery_iff layout room flushFails
        rw [← View.chars_document, ← whole] at errors
        refine ⟨?_, ?_⟩
        · rw [← Document.encode_chars, ← View.chars_document]
          exact whole
        · rw [delivered]
          exact errors
    | graph name =>
        simp [delivered, Sink.delivery_eq_error_iff, View.errorAt]
    | unresolved =>
        simp [delivered, Sink.delivery_eq_error_iff, View.errorAt]

/-- The body of the empty document has 74 bytes. -/
example :
    ((View.document .compact).write {} ⟨some 73, false⟩).result = .error (.body .full) ∧
    ((View.document .compact).write {} ⟨some 74, false⟩).result = .error (.ending .full) ∧
    ((View.document .compact).write {} ⟨some 75, true⟩).result = .error (.ending .flush) := by
  decide +kernel

end ProgramModel
