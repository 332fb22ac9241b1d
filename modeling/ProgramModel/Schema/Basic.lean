/-
# ProgramModel.Schema.Basic -- the shapes of documents

A schema says what a document looks like, whatever the format that it is written
in: texts, flags, labels out of a list, things that may be absent, sequences,
tables, and records with named fields.  `Schema.Value` is the type of what a
document of that shape holds, so one reader and one writer per format serve every
kind of document, and whatever holds of all schemas holds of each of them.
-/
namespace ProgramModel

set_option autoImplicit false

/-- Whether a field has to be there. -/
inductive Presence where
  /-- The field has to be there. -/
  | required
  /-- A missing field has the default value of its schema. -/
  | defaulted
  /-- A missing field has the default value, and a field without a value is not written. -/
  | elided
  deriving DecidableEq, Repr

mutual

/-- The shape of a part of a document. -/
inductive Schema where
  | text
  | flag
  /-- One of the listed names. -/
  | label (names : List String)
  | optional (inner : Schema)
  | sequence (item : Schema)
  /-- Texts by text. -/
  | table
  /-- A record with the name that messages call it by. -/
  | record (name : String) (fields : Fields)

/-- The fields of a record, in their order. -/
inductive Fields where
  | nil
  | cons (key : String) (schema : Schema) (presence : Presence) (rest : Fields)

end

mutual

/-- What a part of this shape holds.  A table holds its entries as they are listed. -/
def Schema.Value : Schema → Type
  | .text => String
  | .flag => Bool
  | .label names => Fin names.length
  | .optional inner => Option inner.Value
  | .sequence item => List item.Value
  | .table => List (String × String)
  | .record _ fields => fields.Value

/-- What the fields of a record hold. -/
def Fields.Value : Fields → Type
  | .nil => PUnit
  | .cons _ schema _ rest => schema.Value × rest.Value

end

mutual

/-- What stands for a missing part: nothing, an empty collection, `false`, an empty text, or a
record of such.  A label has no default. -/
def Schema.default? : (schema : Schema) → Option schema.Value
  | .text => some ""
  | .flag => some false
  | .label _ => none
  | .optional _ => some none
  | .sequence _ => some []
  | .table => some []
  | .record _ fields => fields.default?

/-- The record in which every field is missing. -/
def Fields.default? : (fields : Fields) → Option fields.Value
  | .nil => some ⟨⟩
  | .cons _ schema _ rest =>
      match schema.default?, rest.default? with
      | some first, some others => some (first, others)
      | _, _ => none

end

/-- The value of a field that is missing, if it may be. -/
def Schema.absent? (schema : Schema) : Presence → Option schema.Value
  | .required => none
  | .defaulted | .elided => schema.default?

/-- Whether a part holds no value. -/
def Schema.isNone : (schema : Schema) → schema.Value → Bool
  | .optional _, value => value.isNone
  | _, _ => false

/-- The number of fields. -/
def Fields.count : Fields → Nat
  | .nil => 0
  | .cons _ _ _ rest => rest.count + 1

def Fields.keys : Fields → List String
  | .nil => []
  | .cons key _ _ rest => key :: rest.keys

/-! ## Records as they are read -/

/-- The fields of a record that have been met so far. -/
def Fields.Slots : Fields → Type
  | .nil => PUnit
  | .cons _ schema _ rest => Option schema.Value × rest.Slots

/-- No field met. -/
def Fields.vacant : (fields : Fields) → fields.Slots
  | .nil => ⟨⟩
  | .cons _ _ _ rest => (none, rest.vacant)

/-- The record that the fields met make up, or the key of the first that is missing and must
not be. -/
def Fields.assemble : (fields : Fields) → fields.Slots → Except String fields.Value
  | .nil, _ => .ok ⟨⟩
  | .cons key schema presence rest, (slot, slots) =>
      match slot with
      | some value => (rest.assemble slots).map (value, ·)
      | none =>
          match schema.absent? presence with
          | some value => (rest.assemble slots).map (value, ·)
          | none => .error key

end ProgramModel
