/-
# ProgramModel.Proofs.Formats -- what is written in a format is read back

A format is `Lawful` when its schema is definite and what it writes means what was
written, with nothing to report about it.  Formats are put together from others, and a
format put together from lawful ones is lawful; so is each format of a document down to
the document itself (`lawful_document`).  Hence a document is read back from its text
(`ofJson_chars`), and also from the bytes of it (`ofJson_decode_encode`).
-/
import ProgramModel.Proofs.Schemas
import ProgramModel.Proofs.Utf8
import ProgramModel.View

namespace ProgramModel

set_option autoImplicit false

namespace Format

variable {α : Type} {format : Format α}

/-- What is written can be told apart, and means what was written. -/
structure Lawful (format : Format α) : Prop where
  definite : format.schema.Definite
  means : ∀ value, format.ofValue (format.toValue value) = pure value

/-- **A value of a lawful format is read back from its text.** -/
theorem Lawful.ofJson_pieces (lawful : format.Lawful) (value : α) (layout : Json.Layout) :
    format.ofJson (((((format.toJson value).pieces layout 0).flatten ++ ['\n'])).map .char) =
      .ok (pure value) := by
  have read := Schema.ofJson_pieces lawful.definite (format.toValue value) layout
  rw [Format.ofJson, Format.toJson, read]
  exact congrArg Except.ok (lawful.means value)

/-! ## Parts -/

theorem lawful_text : text.Lawful := ⟨trivial, fun _ => rfl⟩

theorem lawful_optional (lawful : format.Lawful) (single : format.schema.isOptional = false) :
    (optional format).Lawful where
  definite := ⟨single, lawful.definite⟩
  means value := by
    cases value with
    | none => rfl
    | some value =>
        show some <$> format.ofValue (format.toValue value) = _
        rw [lawful.means, map_pure]

theorem Lawful.mapM_ofValue (lawful : format.Lawful) (values : List α) :
    List.mapM format.ofValue (values.map format.toValue) = pure values := by
  induction values with
  | nil => rfl
  | cons value values ih =>
      rw [List.map_cons, List.mapM_cons, lawful.means, ih]
      rfl

theorem lawful_set [Ord α] [Std.TransOrd α] [Std.LawfulEqOrd α] (lawful : format.Lawful) :
    (set format).Lawful where
  definite := lawful.definite
  means values := by
    show SortedSet.ofList <$> List.mapM format.ofValue (values.toList.map format.toValue) = _
    rw [lawful.mapM_ofValue, map_pure, SortedSet.ofList_toList]

/-! ## The parts of documents -/

theorem lawful_artifact : artifact.Lawful where
  definite := by simp [artifact, Schema.Definite, Fields.Definite, Fields.keys]
  means _ := rfl

theorem lawful_callType : callType.Lawful where
  definite := by
    show CallType.labels.Nodup
    decide
  means type := congrArg pure (CallType.ofRank_rank type)

theorem lawful_method : method.Lawful where
  definite := by
    have artifact := (lawful_optional lawful_text rfl).definite
    simpa [method, Schema.Definite, Fields.Definite, Fields.keys] using artifact
  means identity := by
    have artifact := (lawful_optional lawful_text rfl).means identity.artifact
    simp only [method, artifact, pure_bind]

theorem lawful_expectedEntry : expectedEntry.Lawful where
  definite := by
    have ends := lawful_method.definite
    simp [expectedEntry, Schema.Definite, Fields.Definite, Fields.keys, ends]
  means entry := by simp only [expectedEntry, lawful_method.means, pure_bind]

theorem lawful_callEntry : callEntry.Lawful where
  definite := by
    have ends := lawful_method.definite
    have type := lawful_callType.definite
    simp [callEntry, Schema.Definite, Fields.Definite, Fields.keys, ends, type]
  means entry := by simp only [callEntry, lawful_method.means, lawful_callType.means, pure_bind]

theorem lawful_classEntry : classEntry.Lawful where
  definite := by
    have names := (lawful_optional lawful_text rfl).definite
    have texts := (lawful_set lawful_text).definite
    have expected := (lawful_set lawful_expectedEntry).definite
    simp [classEntry, Schema.Definite, Fields.Definite, Fields.keys, names, texts, expected]
  means entry := by
    have name := (lawful_optional lawful_text rfl).means
    have texts := (lawful_set lawful_text).means
    have expected := (lawful_set lawful_expectedEntry).means
    simp only [classEntry, name, texts, expected, pure_bind]

/-- **Every document can be written and read back.** -/
theorem lawful_document : document.Lawful where
  definite := by
    have artifacts := (lawful_set lawful_artifact).definite
    have classes := (lawful_set lawful_classEntry).definite
    have calls := (lawful_set lawful_callEntry).definite
    simp [document, Schema.Definite, Fields.Definite, Fields.keys, artifacts, classes, calls]
  means document := by
    have artifacts := (lawful_set lawful_artifact).means
    have classes := (lawful_set lawful_classEntry).means
    have calls := (lawful_set lawful_callEntry).means
    simp only [Format.document, artifacts, classes, calls, pure_bind]

end Format

/-! ## Documents -/

namespace Document

/-- **A document is read back from its text**, in either layout. -/
theorem ofJson_chars (document : Document) (layout : Json.Layout) :
    Document.ofJson ((document.chars layout).map .char) = .ok document := by
  have read := Format.lawful_document.ofJson_pieces document layout
  rw [Document.ofJson]
  show (Format.document.ofJson ((((Format.document.toJson document).pieces layout 0).flatten ++
    ['\n']).map .char)).map Logged.value = _
  rw [read]
  rfl

/-- A document is read back from the bytes of its text. -/
theorem ofJson_decode_encode (document : Document) (layout : Json.Layout) :
    Document.ofJson (Text.decode (Text.encode (document.chars layout))) = .ok document := by
  rw [Text.decode_encode]
  exact document.ofJson_chars layout

end Document

end ProgramModel
