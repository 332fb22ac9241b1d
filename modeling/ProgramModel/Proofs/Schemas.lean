/-
# ProgramModel.Proofs.Schemas -- a part of a document is read back as it was written

A schema writes a value as JSON, and reads it off the front of the tokens.  When the
schema is `Definite`, reading gives back the written value and stops right behind it
(`read_spelling`): the labels of a list differ, the keys of a record differ, and what may
be absent cannot be absent in two ways.

An object is read key by key, into slots.  `Enters` says that the fields of an object
lead from some slots to others, whatever reader there is for the fields; one lemma then
carries the loop over the keys (`Enters.readFields`).  A record enters the fields that it
has written, each past those whose keys differ (`enters_members`), and what the slots make
up in the end is the record, since only absent values were left out (`assemble_filled`).
-/
import Mathlib.Data.List.Nodup
import ProgramModel.Proofs.Spelling
import ProgramModel.Schema.Json

namespace ProgramModel

set_option autoImplicit false

namespace Json

variable {rest : List Token}

/-! ## Marks between items -/

/-- A value opens with a token that closes nothing. -/
theorem spelling_opens (value : Json) :
    ∃ token tail, value.spelling = token :: tail ∧ token ≠ .mark .closeBracket := by
  cases value <;> exact ⟨_, _, by rw [spelling], by simp⟩

theorem readListStep_separator (first : Bool) {token : Token} (tail : List Token)
    (opens : token ≠ .mark .closeBracket) :
    readListStep first (separator first ++ token :: tail) = .ok (true, token :: tail) := by
  cases first with
  | true =>
      show readListStep true (token :: tail) = _
      unfold readListStep
      split
      case h_2 same => cases same; exact absurd rfl opens
      all_goals simp_all
  | false =>
      show readListStep false (.mark .comma :: token :: tail) = _
      unfold readListStep
      split
      all_goals simp_all

theorem readKey_separator (first : Bool) (key : String) (tail : List Token) :
    readKey first (separator first ++ .text (.ok key) :: tail) = .ok (some key, tail) := by
  cases first <;> rfl

/-! ## Arrays -/

section Arrays

variable {α : Type} {item : List Token → Except Fault (α × List Token)}

theorem length_le_itemSpelling (first : Bool) (items : List Json) :
    items.length ≤ (itemSpelling first items).length := by
  induction items generalizing first with
  | nil => exact Nat.le_refl _
  | cons value items ih =>
      obtain ⟨token, tail, opens, -⟩ := spelling_opens value
      have further := ih false
      simp only [itemSpelling, opens, List.length_append, List.length_cons]
      omega

/-- Items that are read back one by one are read back from an array. -/
theorem readItems_spelling (write : α → Json)
    (reads : ∀ value rest, item ((write value).spelling ++ rest) = .ok (value, rest))
    (values : List α) {fuel : Nat} (enough : values.length < fuel) (first : Bool)
    (rest : List Token) :
    readItems item fuel first
        (itemSpelling first (values.map write) ++ .mark .closeBracket :: rest) =
      .ok (values, rest) := by
  induction values generalizing fuel first with
  | nil =>
      obtain ⟨fuel, rfl⟩ := Nat.exists_eq_add_one_of_ne_zero (Nat.ne_of_gt enough)
      rfl
  | cons value values ih =>
      obtain ⟨fuel, rfl⟩ :=
        Nat.exists_eq_add_one_of_ne_zero (Nat.ne_of_gt (Nat.zero_lt_of_lt enough))
      let further := itemSpelling false (values.map write) ++ .mark .closeBracket :: rest
      obtain ⟨token, tail, opens, apart⟩ := spelling_opens (write value)
      have step := readListStep_separator first (tail ++ further) apart
      have read := reads value further
      have others := ih (by simpa using enough) false
      rw [opens, List.cons_append] at read
      rw [List.map_cons, itemSpelling, List.append_assoc, List.append_assoc, opens,
        List.cons_append, readItems, step]
      simp only [bind, Except.bind, if_true]
      rw [read]
      simp only [further, others]
      rfl

end Arrays

/-! ## Objects -/

section Objects

variable {α : Type} {field : String → α → List Token → Option (Except Fault (α × List Token))}
  {slots last : α} {members : List (String × Json)}

theorem length_le_memberSpelling (first : Bool) (members : List (String × Json)) :
    members.length ≤ (memberSpelling first members).length := by
  induction members generalizing first with
  | nil => exact Nat.le_refl _
  | cons member members ih =>
      obtain ⟨key, value⟩ := member
      have further := ih false
      simp only [memberSpelling, fieldSpelling, List.length_append, List.length_cons]
      omega

/-- The members of an object lead from some slots to others: each is a field that is known, and is
entered from the tokens after its key. -/
inductive Enters (field : String → α → List Token → Option (Except Fault (α × List Token))) :
    α → List (String × Json) → α → Prop where
  | nil (slots : α) : Enters field slots [] slots
  | cons {slots next last : α} {key : String} {value : Json} {members : List (String × Json)}
      (enters : ∀ rest, field key slots (.mark .colon :: (value.spelling ++ rest)) =
        some (.ok (next, rest)))
      (further : Enters field next members last) :
      Enters field slots ((key, value) :: members) last

/-- **An object is read into the slots that its members lead to.** -/
theorem Enters.readFields (enters : Enters field slots members last) {fuel : Nat}
    (enough : members.length < fuel) (first : Bool) (rest : List Token) :
    Json.readFields field fuel first slots
        (memberSpelling first members ++ .mark .closeBrace :: rest) = .ok (last, rest) := by
  induction enters generalizing fuel first with
  | nil slots =>
      obtain ⟨fuel, rfl⟩ := Nat.exists_eq_add_one_of_ne_zero (Nat.ne_of_gt enough)
      rfl
  | @cons slots next last key value members enters _ ih =>
      obtain ⟨fuel, rfl⟩ :=
        Nat.exists_eq_add_one_of_ne_zero (Nat.ne_of_gt (Nat.zero_lt_of_lt enough))
      have step := readKey_separator first key (.mark .colon :: (value.spelling ++
        (memberSpelling false members ++ .mark .closeBrace :: rest)))
      have others := ih (by simpa using enough) false
      rw [memberSpelling, fieldSpelling]
      simp only [List.append_assoc, List.cons_append]
      rw [Json.readFields, step]
      simp only [bind, Except.bind, enters]
      exact others

/-- Entries that are written under their keys are read back from an object. -/
theorem readEntries_spelling (entries : List (String × String)) {fuel : Nat}
    (enough : entries.length < fuel) (first : Bool) (rest : List Token) :
    readEntries fuel first
        (memberSpelling first (entries.map fun (key, value) => (key, .text value)) ++
          .mark .closeBrace :: rest) = .ok (entries, rest) := by
  induction entries generalizing fuel first with
  | nil =>
      obtain ⟨fuel, rfl⟩ := Nat.exists_eq_add_one_of_ne_zero (Nat.ne_of_gt enough)
      rfl
  | cons entry entries ih =>
      obtain ⟨fuel, rfl⟩ :=
        Nat.exists_eq_add_one_of_ne_zero (Nat.ne_of_gt (Nat.zero_lt_of_lt enough))
      obtain ⟨key, value⟩ := entry
      have step := readKey_separator first key (.mark .colon :: .text (.ok value) ::
        (memberSpelling false (entries.map fun (key, value) => (key, .text value)) ++
          .mark .closeBrace :: rest))
      have others := ih (by simpa using enough) false
      rw [List.map_cons, memberSpelling, fieldSpelling, spelling]
      simp only [List.append_assoc, List.cons_append, List.nil_append]
      rw [readEntries, step]
      simp only [bind, Except.bind, readColon, readText, others]
      rfl

end Objects

/-! ## Labels -/

theorem findLabel_labelAt {names : List String} (differ : names.Nodup)
    (place : Fin names.length) : findLabel names (labelAt names place) = .ok place := by
  have found : names.finIdxOf? (labelAt names place) = some place := by
    rw [List.finIdxOf?_eq_some_iff]
    refine ⟨rfl, fun other before same => ?_⟩
    have equal : other.val = place.val := differ.getElem_inj_iff.mp same
    exact absurd (Fin.ext equal) (Fin.ne_of_lt before)
  rw [findLabel, found]

end Json

open Json (Token Fault Enters)

/-! ## Definite schemas -/

/-- Whether a part may be absent. -/
def Schema.isOptional : Schema → Bool
  | .optional _ => true
  | _ => false

mutual

/-- Whether different values are written in different ways. -/
def Schema.Definite : Schema → Prop
  | .label names => names.Nodup
  | .optional inner => inner.isOptional = false ∧ inner.Definite
  | .sequence item => item.Definite
  | .record _ fields => fields.Definite
  | _ => True

def Fields.Definite : Fields → Prop
  | .nil => True
  | .cons key schema _ rest => key ∉ rest.keys ∧ schema.Definite ∧ rest.Definite

end

/-- What holds a value is not written as nothing. -/
theorem Schema.spelling_toJson_ne_null {schema : Schema} (definite : schema.isOptional = false)
    (value : schema.Value) (rest tail : List Token) :
    (schema.toJson value).spelling ++ rest ≠ .null :: tail := by
  cases schema with
  | optional inner => cases definite
  | text => simp [Schema.toJson, Json.spelling]
  | flag => simp [Schema.toJson, Json.spelling]
  | label names => simp [Schema.toJson, Json.spelling]
  | sequence item => simp [Schema.toJson, Json.spelling]
  | table => simp [Schema.toJson, Json.spelling]
  | record name fields => simp [Schema.toJson, Json.spelling]

/-! ## Reading from the front -/

theorem Schema.read_sequence (item : Schema) (rest : List Token) :
    (Schema.sequence item).read (.mark .openBracket :: rest) =
      Json.readItems item.read (rest.length + 1) true rest := rfl

theorem Schema.read_table (rest : List Token) :
    Schema.table.read (.mark .openBrace :: rest) =
      Json.readEntries (rest.length + 1) true rest := rfl

theorem Schema.read_record (name : String) (fields : Fields) (rest : List Token) :
    (Schema.record name fields).read (.mark .openBrace :: rest) =
      (Json.readFields fields.readField (rest.length + 1) true fields.vacant rest >>= fun read =>
        match fields.assemble read.1 with
        | .ok value => .ok (value, read.2)
        | .error key => .error (.missingField key)) := rfl

theorem Schema.read_optional (inner : Schema) (tokens : List Token) :
    (Schema.optional inner).read tokens =
      match tokens with
      | .null :: rest => .ok (none, rest)
      | tokens => (inner.read tokens).map fun (value, rest) => (some value, rest) := rfl

theorem Schema.read_present {inner : Schema} {tokens : List Token}
    (present : ∀ tail, tokens ≠ .null :: tail) :
    (Schema.optional inner).read tokens =
      (inner.read tokens).map fun (value, rest) => (some value, rest) := by
  rw [Schema.read_optional]
  split
  · rename_i tail
    exact absurd rfl (present tail)
  · rfl

/-! ## The slots of a record -/

/-- The slots of a record that has been written: those of the fields left out are empty. -/
def Fields.filled : (fields : Fields) → fields.Value → fields.Slots
  | .nil, _ => ⟨⟩
  | .cons _ schema presence rest, (value, values) =>
      (if presence = .elided ∧ schema.isNone value then none else some value, rest.filled values)

/-- What holds no value is what stands for a missing part. -/
theorem Schema.default?_of_isNone {schema : Schema} {value : schema.Value}
    (absent : schema.isNone value = true) : schema.default? = some value := by
  cases schema with
  | optional inner =>
      have none_ : value = none := Option.isNone_iff_eq_none.mp absent
      rw [none_]
      rfl
  | _ => cases absent

/-- **The slots of a written record make up the record.** -/
theorem Fields.assemble_filled :
    (fields : Fields) → (values : fields.Value) →
      fields.assemble (fields.filled values) = .ok values
  | .nil, _ => rfl
  | .cons key schema presence rest, (value, values) => by
      have others := rest.assemble_filled values
      rw [Fields.filled]
      by_cases left : presence = .elided ∧ schema.isNone value = true
      · obtain ⟨rfl, absent⟩ := left
        have default : schema.absent? .elided = some value := Schema.default?_of_isNone absent
        simp only [Fields.assemble, absent, and_self, if_true, default, others]
        rfl
      · simp only [Fields.assemble, if_neg left, others]
        rfl

/-- A record writes no other keys than its own. -/
theorem Fields.keys_members :
    (fields : Fields) → (values : fields.Value) →
      ∀ member ∈ fields.members values, member.1 ∈ fields.keys
  | .nil, _ => by simp [Fields.members]
  | .cons key schema presence rest, (value, values) => by
      intro member there
      have others := rest.keys_members values member
      rw [Fields.members] at there
      rw [Fields.keys]
      split at there
      · exact List.mem_cons_of_mem _ (others there)
      · rcases List.mem_cons.mp there with rfl | later
        · exact List.mem_cons_self
        · exact List.mem_cons_of_mem _ (others later)

/-- Fields that are entered among others are entered past a field with a key of its own. -/
theorem Fields.enters_cons {key : String} {schema : Schema} {presence : Presence} {rest : Fields}
    {slots last : rest.Slots} {members : List (String × Json)} (slot : Option schema.Value)
    (enters : Enters rest.readField slots members last)
    (differ : ∀ member ∈ members, member.1 ≠ key) :
    Enters (Fields.cons key schema presence rest).readField (slot, slots) members (slot, last) := by
  induction enters with
  | nil slots => exact .nil _
  | @cons slots next last found value members enters _ ih =>
      have others := ih fun member there => differ member (List.mem_cons_of_mem _ there)
      refine .cons (fun tail => ?_) others
      have apart : found ≠ key := differ (found, value) List.mem_cons_self
      rw [Fields.readField, if_neg apart, enters]
      rfl

/-! ## Reading back -/

mutual

/-- **A part of a document is read back as it was written**, up to where it ends. -/
theorem Schema.read_spelling :
    (schema : Schema) → (definite : schema.Definite) → (value : schema.Value) →
      (rest : List Token) →
      schema.read ((schema.toJson value).spelling ++ rest) = .ok (value, rest)
  | .text, _, _, _ => rfl
  | .flag, _, _, _ => rfl
  | .label names, differ, place, rest => by
      have found := Json.findLabel_labelAt differ place
      show (Json.findLabel names (labelAt names place) >>= fun place => .ok (place, rest)) = _
      rw [found]
      rfl
  | .optional _, _, none, _ => rfl
  | .optional inner, ⟨single, definite⟩, some value, rest => by
      have present := Schema.spelling_toJson_ne_null single value rest
      have read := inner.read_spelling definite value rest
      show (Schema.optional inner).read ((inner.toJson value).spelling ++ rest) = _
      rw [Schema.read_present present, read]
      rfl
  | .sequence item, definite, values, rest => by
      have reads := fun value rest => item.read_spelling definite value rest
      have enough := Json.length_le_itemSpelling true (List.map item.toJson values)
      show (Schema.sequence item).read (.mark .openBracket :: (Json.itemSpelling true
        (List.map item.toJson values) ++ [.mark .closeBracket] ++ rest)) = _
      rw [Schema.read_sequence, List.append_assoc]
      refine Json.readItems_spelling item.toJson reads values ?_ true rest
      have length : (List.map item.toJson values).length = List.length values := List.length_map _
      rw [List.length_append]
      omega
  | .table, _, entries, rest => by
      let members := List.map (fun (key, value) => (key, Json.text value)) entries
      have enough := Json.length_le_memberSpelling true members
      show Schema.table.read (.mark .openBrace :: (Json.memberSpelling true members ++
        [.mark .closeBrace] ++ rest)) = _
      rw [Schema.read_table, List.append_assoc]
      refine Json.readEntries_spelling entries ?_ true rest
      have length : members.length = List.length entries := List.length_map _
      rw [List.length_append]
      omega
  | .record name fields, definite, values, rest => by
      have enters := fields.enters_members definite values
      have enough := Json.length_le_memberSpelling true (fields.members values)
      have whole := fields.assemble_filled values
      show (Schema.record name fields).read (.mark .openBrace :: (Json.memberSpelling true
        (fields.members values) ++ [.mark .closeBrace] ++ rest)) = _
      rw [Schema.read_record, List.append_assoc]
      rw [List.singleton_append, enters.readFields (by rw [List.length_append]; omega) true rest]
      simp only [bind, Except.bind, whole]
      rfl

/-- The members of a written record lead from no slot to the record's slots. -/
theorem Fields.enters_members :
    (fields : Fields) → (definite : fields.Definite) → (values : fields.Value) →
      Enters fields.readField fields.vacant (fields.members values) (fields.filled values)
  | .nil, _, _ => .nil _
  | .cons key schema presence rest, ⟨apart, definite, others⟩, (value, values) => by
      have further := rest.enters_members others values
      have differ (member : String × Json) (there : member ∈ rest.members values) :
          member.1 ≠ key := by
        intro same
        exact apart (same ▸ rest.keys_members values member there)
      rw [Fields.members, Fields.filled]
      by_cases left : presence = .elided ∧ schema.isNone value = true
      · rw [if_pos left, if_pos left]
        exact Fields.enters_cons none further differ
      · rw [if_neg left, if_neg left]
        refine .cons (fun tail => ?_) (Fields.enters_cons (some value) further differ)
        have read := schema.read_spelling definite value tail
        rw [Fields.vacant, Fields.readField, if_pos rfl]
        simp only [Json.readColon, bind, Except.bind, read]
        rfl

end

/-! ## Whole documents -/

mutual

/-- Nothing that a schema describes is written as a number. -/
theorem Schema.numberless_toJson :
    (schema : Schema) → (value : schema.Value) → (schema.toJson value).Numberless
  | .text, _ => trivial
  | .flag, _ => trivial
  | .label _, _ => trivial
  | .optional _, none => trivial
  | .optional inner, some value => inner.numberless_toJson value
  | .sequence item, values => by
      refine Json.numberlessItems_of_forall fun json there => ?_
      obtain ⟨value, -, rfl⟩ := List.mem_map.mp there
      exact item.numberless_toJson value
  | .table, entries => by
      refine Json.numberlessMembers_of_forall fun member there => ?_
      obtain ⟨⟨key, value⟩, -, rfl⟩ := List.mem_map.mp there
      trivial
  | .record _ fields, values => fields.numberless_members values

theorem Fields.numberless_members :
    (fields : Fields) → (values : fields.Value) → Json.NumberlessMembers (fields.members values)
  | .nil, _ => trivial
  | .cons key schema presence rest, (value, values) => by
      rw [Fields.members]
      split
      · exact rest.numberless_members values
      · exact ⟨schema.numberless_toJson value, rest.numberless_members values⟩

end

/-- A text with the tokens of a written value is read as the value. -/
theorem Schema.ofJson_of_tokens {schema : Schema} (definite : schema.Definite)
    (value : schema.Value) {text : List Text.Glyph}
    (cut : Json.tokens text = (schema.toJson value).spelling) : schema.ofJson text = .ok value := by
  have read := schema.read_spelling definite value []
  rw [List.append_nil] at read
  rw [Schema.ofJson, cut, read]
  rfl

/-- **A whole document is read back as it was written**, in either layout. -/
theorem Schema.ofJson_pieces {schema : Schema} (definite : schema.Definite) (value : schema.Value)
    (layout : Json.Layout) :
    schema.ofJson (((((schema.toJson value).pieces layout 0).flatten ++ ['\n'])).map .char) =
      .ok value :=
  schema.ofJson_of_tokens definite value
    (Json.tokens_pieces layout (schema.numberless_toJson value))

/-- So it is without a line break after it. -/
theorem Schema.ofJson_chars {schema : Schema} (definite : schema.Definite) (value : schema.Value)
    (layout : Json.Layout) :
    schema.ofJson (((schema.toJson value).chars layout).map .char) = .ok value :=
  schema.ofJson_of_tokens definite value
    (Json.tokens_chars layout (schema.numberless_toJson value))

end ProgramModel
