/-
# ProgramModel.Proofs.Exchange -- a document is read back from what was written of it

A document is written in pieces, and a sink may fail in the middle of any of them.  Two
writes, one after the other, take and fail as one write of both does (`Sink.write_append`).
So the pieces do not matter: writing all of them is writing the text
(`Sink.writeAll_eq_write`), and a sink that did not fail holds the bytes of the whole text
(`Document.accepted_write_of_ok`).

From those bytes the document is read back, in either layout.  Hence the bytes of a layout
determine the document, and the two layouts say the same (`document_roundTrips`).
-/
import ProgramModel.Proofs.Formats

namespace ProgramModel

set_option autoImplicit false

/-! ## Writing in steps -/

namespace Writing

variable {ε φ α β : Type} {first : Writing ε α} {next : α → Writing ε β}

theorem bind_of_ok {value : α} (goes : first.result = .ok value) :
    first >>= next = ⟨first.accepted ++ (next value).accepted, (next value).result⟩ := by
  simp only [bind, goes]

theorem bind_of_error {fault : ε} (fails : first.result = .error fault) :
    first >>= next = ⟨first.accepted, .error fault⟩ := by
  simp only [bind, fails]

/-- Steps succeed when each of them does, and then what they wrote is joined. -/
theorem bind_eq_ok {value : β} (goes : (first >>= next).result = .ok value) :
    ∃ middle, first.result = .ok middle ∧ (next middle).result = .ok value ∧
      (first >>= next).accepted = first.accepted ++ (next middle).accepted := by
  cases result : first.result with
  | error fault =>
      rw [bind_of_error result] at goes
      cases goes
  | ok middle =>
      rw [bind_of_ok result] at goes ⊢
      exact ⟨middle, rfl, goes, rfl⟩

theorem mapFault_eq_ok {change : ε → φ} {value : α} :
    (first.mapFault change).result = .ok value ↔ first.result = .ok value := by
  unfold mapFault
  cases first.result <;> simp [Except.mapError]

end Writing

/-! ## Chunks -/

namespace Sink

/-- A chunk is taken whole, or as far as there is room. -/
theorem write_of_room {room : Nat} {flushFails : Bool} (chunk : List UInt8) :
    (⟨some room, flushFails⟩ : Sink).write chunk =
      if chunk.length ≤ room then ⟨chunk, .ok ⟨some (room - chunk.length), flushFails⟩⟩
      else ⟨chunk.take room, .error .full⟩ := rfl

/-- **Two writes are one write of both chunks**, wherever the room ends. -/
theorem write_append (sink : Sink) (first second : List UInt8) :
    (sink.write first >>= fun sink => sink.write second) = sink.write (first ++ second) := by
  obtain ⟨room, flushFails⟩ := sink
  cases room with
  | none => rfl
  | some room =>
      have both : (first ++ second).length = first.length + second.length := List.length_append
      by_cases fits : first.length ≤ room
      · have taken : (⟨some room, flushFails⟩ : Sink).write first =
            ⟨first, .ok ⟨some (room - first.length), flushFails⟩⟩ := by
          rw [write_of_room, if_pos fits]
        have goes := congrArg Writing.result taken
        rw [Writing.bind_of_ok goes, taken, write_of_room, write_of_room]
        by_cases rest : second.length ≤ room - first.length
        · have whole : (first ++ second).length ≤ room := by omega
          rw [if_pos rest, if_pos whole, both, Nat.sub_sub]
        · have exceeds : ¬ (first ++ second).length ≤ room := by omega
          rw [if_neg rest, if_neg exceeds, List.take_append, List.take_of_length_le fits]
      · have exceeds : ¬ (first ++ second).length ≤ room := by omega
        have cut : (⟨some room, flushFails⟩ : Sink).write first =
            ⟨first.take room, .error .full⟩ := by
          rw [write_of_room, if_neg fits]
        have fails := congrArg Writing.result cut
        have inside : room - first.length = 0 := by omega
        rw [Writing.bind_of_error fails, cut, write_of_room, if_neg exceeds, List.take_append, inside,
          List.take_zero, List.append_nil]

/-- **Writing pieces is writing their text.** -/
theorem writeAll_eq_write (sink : Sink) (pieces : List (List Char)) :
    sink.writeAll pieces = sink.write (Text.encode pieces.flatten) := by
  induction pieces generalizing sink with
  | nil =>
      obtain ⟨room, flushFails⟩ := sink
      cases room <;> rfl
  | cons piece rest ih =>
      have text : Text.encode (piece :: rest).flatten =
          Text.encode piece ++ Text.encode rest.flatten := by
        simp [Text.encode]
      have later : (fun sink : Sink => sink.writeAll rest) =
          fun sink => sink.write (Text.encode rest.flatten) := funext ih
      rw [text, ← write_append, ← later]
      rfl

theorem write_eq_ok {sink later : Sink} {chunk : List UInt8}
    (goes : (sink.write chunk).result = .ok later) : (sink.write chunk).accepted = chunk := by
  obtain ⟨room, flushFails⟩ := sink
  cases room with
  | none => rfl
  | some room =>
      rw [write_of_room] at goes ⊢
      by_cases fits : chunk.length ≤ room
      · rw [if_pos fits]
      · rw [if_neg fits] at goes
        cases goes

end Sink

/-! ## Documents -/

namespace Document

variable {document : Document} {layout : Json.Layout}

/-- **A sink that did not fail holds the whole text.** -/
theorem accepted_write_of_ok {sink : Sink} (goes : (document.write layout sink).result = .ok ()) :
    (document.write layout sink).accepted = Text.encode (document.chars layout) := by
  obtain ⟨inner, body, after, bytes⟩ := Writing.bind_eq_ok goes
  obtain ⟨last, ending, flushed, more⟩ := Writing.bind_eq_ok after
  have inside : (sink.writeAll (document.pieces layout)).accepted =
      Text.encode (document.pieces layout).flatten := by
    rw [Sink.writeAll_eq_write] at body ⊢
    exact Sink.write_eq_ok (Writing.mapFault_eq_ok.mp body)
  have closing : (inner.writeAll [['\n']]).accepted = Text.encode ['\n'] := by
    rw [Sink.writeAll_eq_write] at ending ⊢
    exact Sink.write_eq_ok (Writing.mapFault_eq_ok.mp ending)
  calc (document.write layout sink).accepted
      = (sink.writeAll (document.pieces layout)).accepted ++
          ((inner.writeAll [['\n']]).accepted ++ []) := by
        refine bytes.trans ?_
        rw [more]
        rfl
    _ = Text.encode (document.chars layout) := by
        rw [inside, closing, List.append_nil, chars]
        simp only [Text.encode, List.flatMap_append]

/-- A sink without a limit does not fail. -/
theorem result_write_unlimited (document : Document) (layout : Json.Layout) :
    (document.write layout {}).result = .ok () := by
  unfold write
  rw [Sink.writeAll_eq_write]
  rfl

/-- What a sink without a limit holds is read back as the document. -/
theorem ofJson_accepted_write (document : Document) (layout : Json.Layout) :
    Document.ofJson (Text.decode (document.write layout {}).accepted) = .ok document := by
  rw [accepted_write_of_ok (document.result_write_unlimited layout)]
  exact document.ofJson_decode_encode layout

end Document

/-- **A document survives being written and read.**  Writing fails only if the sink does; whatever
sink took the document has the same bytes, and from these the document is read back.  So documents
that are written alike in one layout are the same document, and the layouts of one document are read
alike. -/
theorem document_roundTrips (document : Document) (layout : Json.Layout) :
    let written := document.write layout {}
    written.result = .ok () ∧
    Document.ofJson (Text.decode written.accepted) = .ok document ∧
    (∀ sink, (document.write layout sink).result = .ok () →
      (document.write layout sink).accepted = written.accepted) ∧
    (∀ other : Document, (other.write layout {}).accepted = written.accepted ↔ other = document) ∧
    (∀ another, Document.ofJson (Text.decode (document.write another {}).accepted) =
      Document.ofJson (Text.decode written.accepted)) := by
  intro written
  have goes : written.result = .ok () := document.result_write_unlimited layout
  have reads : Document.ofJson (Text.decode written.accepted) = .ok document :=
    document.ofJson_accepted_write layout
  refine ⟨goes, reads, ?_, ?_, ?_⟩
  · intro sink took
    have bytes := Document.accepted_write_of_ok goes
    exact (Document.accepted_write_of_ok took).trans bytes.symm
  · intro other
    constructor
    · intro same
      have readsOther := other.ofJson_accepted_write layout
      rw [same, reads] at readsOther
      cases readsOther
      rfl
    · rintro rfl
      rfl
  · intro another
    have readsAnother := document.ofJson_accepted_write another
    rw [readsAnother, reads]

/-- A document with one class, whose texts hold a quote, a backslash, a line break, a control
character and nothing at all. -/
def escapedDocument : Document where
  classes := SortedSet.ofList [
    { artifact := some "", name := "a\"\\\n\x01é", superclass := none,
      interfaces := SortedSet.ofList ["", "\\"], methods := ∅, expectedCalls := ∅,
      isPublic := true, isPrivate := false, isInterface := false, isAbstract := false }]

/-- The document is read back from a sink that it just fits into. -/
theorem document_roundTrips_escaped :
    (escapedDocument.write .compact ⟨some 235, false⟩).result = .ok () ∧
    Document.ofJson (Text.decode (escapedDocument.write .compact ⟨some 235, false⟩).accepted) =
      .ok escapedDocument := by
  have took : (escapedDocument.write .compact ⟨some 235, false⟩).result = .ok () := by
    decide +kernel
  obtain ⟨-, reads, whole, -⟩ := document_roundTrips escapedDocument .compact
  rw [whole _ took]
  exact ⟨took, reads⟩

end ProgramModel
