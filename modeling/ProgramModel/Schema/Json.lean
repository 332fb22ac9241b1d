/-
# ProgramModel.Schema.Json -- documents of a schema as JSON

`Schema.read` reads a part of a document off the front of the tokens and refuses it
for the first fault in the order of the text.  A record may be written as an
object, in any order of its fields and with fields nobody knows, or as the array of
its fields in their order; a label may be written as a text or as an object with
the label as its only key and `null` under it.  Values of unknown fields are passed
over by `skip`, which follows the brackets and nothing else.

`Schema.toJson` is the way back.  It writes records as objects in the order of
their fields and leaves out elided fields without a value.
-/
import ProgramModel.Json.Basic
import ProgramModel.Json.Token
import ProgramModel.Schema.Basic

namespace ProgramModel

set_option autoImplicit false

namespace Json

/-! ## Passing over a value -/

/-- A bracket that is open. -/
inductive Frame where
  | list
  | object
  deriving DecidableEq, Repr

/-- What has to come next while a value is passed over. -/
inductive Expect where
  /-- A value. -/
  | value
  /-- A value or a key, or the end of the bracket that has just been opened. -/
  | first
  /-- A comma or the end of the bracket; or nothing more, if no bracket is open. -/
  | next
  /-- A key. -/
  | key
  /-- A colon. -/
  | colon
  deriving DecidableEq, Repr

def skipValue (opened : List Frame) : Token → Except Fault (List Frame × Expect)
  | .null | .bool _ | .text _ | .number _ => .ok (opened, .next)
  | .mark .openBracket => .ok (.list :: opened, .first)
  | .mark .openBrace => .ok (.object :: opened, .first)
  | .mark _ => .error .valueExpected
  | .broken _ _ lenient => .error lenient

def skipKey (opened : List Frame) : Token → Except Fault (List Frame × Expect)
  | .text _ => .ok (opened, .colon)
  | .broken true _ lenient => .error lenient
  | _ => .error .keyNotText

/-- One token while a value is passed over. -/
def skipStep (opened : List Frame) (expect : Expect) (token : Token) :
    Except Fault (List Frame × Expect) :=
  match expect, opened, token with
  | .first, .list :: outer, .mark .closeBracket => .ok (outer, .next)
  | .first, .object :: outer, .mark .closeBrace => .ok (outer, .next)
  | .first, .object :: _, token => skipKey opened token
  | .next, .list :: outer, .mark .closeBracket => .ok (outer, .next)
  | .next, .list :: _, .mark .comma => .ok (opened, .value)
  | .next, .list :: _, _ => .error .listCommaOrEnd
  | .next, .object :: outer, .mark .closeBrace => .ok (outer, .next)
  | .next, .object :: _, .mark .comma => .ok (opened, .key)
  | .next, .object :: _, _ => .error .objectCommaOrEnd
  | .key, _, token => skipKey opened token
  | .colon, _, .mark .colon => .ok (opened, .value)
  | .colon, _, _ => .error .colonExpected
  | _, _, token => skipValue opened token

/-- The fault of a text that ends while a value is passed over. -/
def skipEnd : List Frame → Expect → Fault
  | _, .value => .endOfValue
  | .list :: _, _ => .endOfList
  | _, _ => .endOfObject

/-- Pass over tokens until the value is whole. -/
def skip (opened : List Frame) (expect : Expect) : List Token → Except Fault (List Token)
  | [] => .error (skipEnd opened expect)
  | token :: rest =>
      match skipStep opened expect token with
      | .error fault => .error fault
      | .ok ([], .next) => .ok rest
      | .ok (opened, expect) => skip opened expect rest

/-! ## Reading -/

/-! A reader takes a part of a document off the front of the tokens and gives it together with the
tokens after it. -/

/-- Why what stands at the front is not of the expected kind. -/
def mismatch (expected : String) : List Token → Fault
  | [] => .endOfValue
  | .null :: _ => .wrongKind .null expected
  | .bool value :: _ => .wrongKind (.bool value) expected
  | .text (.ok value) :: _ => .wrongKind (.text value) expected
  | .text (.error fault) :: _ => fault
  | .number (.ok value) :: _ => .wrongKind value expected
  | .number (.error fault) :: _ => fault
  | .mark .openBracket :: _ => .wrongKind .sequence expected
  | .mark .openBrace :: _ => .wrongKind .map expected
  | .mark _ :: _ => .valueExpected
  | .broken _ strict _ :: _ => strict

def readText : List Token → Except Fault (String × List Token)
  | .text (.ok value) :: rest => .ok (value, rest)
  | tokens => .error (mismatch "a string" tokens)

def readFlag : List Token → Except Fault (Bool × List Token)
  | .bool value :: rest => .ok (value, rest)
  | tokens => .error (mismatch "a boolean" tokens)

/-- Read the colon after a key. -/
def readColon : List Token → Except Fault (List Token)
  | .mark .colon :: rest => .ok rest
  | [] => .error .endOfObject
  | _ => .error .colonExpected

/-- Whether another item follows in an array, and the tokens where it begins. -/
def readListStep (first : Bool) : List Token → Except Fault (Bool × List Token)
  | [] => .error .endOfList
  | .mark .closeBracket :: rest => .ok (false, .mark .closeBracket :: rest)
  | tokens =>
      if first then .ok (true, tokens)
      else match tokens with
        | .mark .comma :: [] => .error .endOfValue
        | .mark .comma :: .mark .closeBracket :: _ => .error .trailingComma
        | .mark .comma :: rest => .ok (true, rest)
        | _ => .error .listCommaOrEnd

/-- The end of an array from which no further item is read. -/
def readListEnd : List Token → Except Fault (List Token)
  | .mark .closeBracket :: rest => .ok rest
  | .mark .comma :: .mark .closeBracket :: _ => .error .trailingComma
  | _ :: _ => .error .trailingCharacters
  | [] => .error .endOfList

/-- The next key of an object, or `none` at its end. -/
def readKey (first : Bool) : List Token → Except Fault (Option String × List Token)
  | [] => .error .endOfObject
  | .mark .closeBrace :: rest => .ok (none, rest)
  | tokens =>
      let key : List Token → Except Fault (Option String × List Token)
        | .text (.ok key) :: rest => .ok (some key, rest)
        | .text (.error fault) :: _ => .error fault
        | .broken true strict _ :: _ => .error strict
        | _ => .error .keyNotText
      if first then key tokens
      else match tokens with
        | .mark .comma :: [] => .error .endOfValue
        | .mark .comma :: .mark .closeBrace :: _ => .error .trailingComma
        | .mark .comma :: rest => key rest
        | _ => .error .objectCommaOrEnd

/-- Read the items of an array, at most `fuel` of them. -/
def readItems {α : Type} (item : List Token → Except Fault (α × List Token)) :
    Nat → Bool → List Token → Except Fault (List α × List Token)
  | 0, _, _ => .error .endOfList
  | fuel + 1, first, tokens => do
      let (more, tokens) ← readListStep first tokens
      if more then
        let (value, tokens) ← item tokens
        let (values, tokens) ← readItems item fuel false tokens
        return (value :: values, tokens)
      else return ([], ← readListEnd tokens)

/-- Read the entries of a table, at most `fuel` of them. -/
def readEntries : Nat → Bool → List Token → Except Fault (List (String × String) × List Token)
  | 0, _, _ => .error .endOfObject
  | fuel + 1, first, tokens => do
      match ← readKey first tokens with
      | (none, tokens) => return ([], tokens)
      | (some key, tokens) =>
          let (value, tokens) ← readText (← readColon tokens)
          let (entries, tokens) ← readEntries fuel false tokens
          return ((key, value) :: entries, tokens)

/-- Read the fields of a record written as an object, at most `fuel` of them.  `field` enters a
field that it knows. -/
def readFields {α : Type}
    (field : String → α → List Token → Option (Except Fault (α × List Token))) :
    Nat → Bool → α → List Token → Except Fault (α × List Token)
  | 0, _, _, _ => .error .endOfObject
  | fuel + 1, first, slots, tokens => do
      match ← readKey first tokens with
      | (none, tokens) => return (slots, tokens)
      | (some key, tokens) =>
          match field key slots tokens with
          | some read =>
              let (slots, tokens) ← read
              readFields field fuel false slots tokens
          | none =>
              let tokens ← skip [] .value (← readColon tokens)
              readFields field fuel false slots tokens

/-- The place of a label. -/
def findLabel (names : List String) (label : String) : Except Fault (Fin names.length) :=
  match names.finIdxOf? label with
  | some place => .ok place
  | none => .error (.unknownLabel label names)

def readLabel (names : List String) : List Token → Except Fault (Fin names.length × List Token)
  | .text (.ok label) :: rest => do return (← findLabel names label, rest)
  | .text (.error fault) :: _ => .error fault
  | .broken true strict _ :: _ => .error strict
  | .mark .openBrace :: .text (.ok label) :: rest => do
      let place ← findLabel names label
      match ← readColon rest with
      | .null :: .mark .closeBrace :: rest => return (place, rest)
      | [.null] => .error .endOfObject
      | .null :: _ => .error .valueExpected
      | tokens => .error (mismatch "unit" tokens)
  | .mark .openBrace :: .text (.error fault) :: _ => .error fault
  | .mark .openBrace :: .broken true strict _ :: _ => .error strict
  | .mark .openBrace :: .mark .closeBrace :: _ => .error .valueExpected
  | .mark .openBrace :: _ :: _ => .error .keyNotText
  | [.mark .openBrace] => .error .endOfObject
  | [] => .error .endOfValue
  | _ => .error .valueExpected

end Json

open Json (Token Fault)

/-- What a message calls a record with too few items. -/
def recordOfLength (name : String) (count : Nat) : String :=
  "struct " ++ name ++ " with " ++ toString count ++
    (if count = 1 then " element" else " elements")

mutual

/-- Read a part of a document. -/
def Schema.read : (schema : Schema) → List Token → Except Fault (schema.Value × List Token)
  | .text, tokens => Json.readText tokens
  | .flag, tokens => Json.readFlag tokens
  | .label names, tokens => Json.readLabel names tokens
  | .optional inner, tokens =>
      match tokens with
      | .null :: rest => .ok (none, rest)
      | tokens => (inner.read tokens).map fun (value, rest) => (some value, rest)
  | .sequence item, tokens =>
      match tokens with
      | .mark .openBracket :: rest => Json.readItems item.read (rest.length + 1) true rest
      | tokens => .error (Json.mismatch "a sequence" tokens)
  | .table, tokens =>
      match tokens with
      | .mark .openBrace :: rest => Json.readEntries (rest.length + 1) true rest
      | tokens => .error (Json.mismatch "a map" tokens)
  | .record name fields, tokens =>
      match tokens with
      | .mark .openBrace :: rest => do
          let (slots, rest) ←
            Json.readFields fields.readField (rest.length + 1) true fields.vacant rest
          match fields.assemble slots with
          | .ok value => return (value, rest)
          | .error key => .error (.missingField key)
      | .mark .openBracket :: rest => do
          let (value, rest) ← fields.readItems name fields.count 0 rest
          return (value, ← Json.readListEnd rest)
      | tokens => .error (Json.mismatch ("struct " ++ name) tokens)

/-- Enter the field with a key, if there is one, from the tokens after the key. -/
def Fields.readField : (fields : Fields) → String → fields.Slots → List Token →
    Option (Except Fault (fields.Slots × List Token))
  | .nil, _, _, _ => none
  | .cons key schema _ rest, found, (slot, slots), tokens =>
      if found = key then
        some do
          if slot.isSome then .error (.duplicateField key)
          let (value, tokens) ← schema.read (← Json.readColon tokens)
          return ((some value, slots), tokens)
      else
        (rest.readField found slots tokens).map fun read =>
          read.map fun (slots, tokens) => ((slot, slots), tokens)

/-- Read the fields of a record written as an array, from the one at `place` on. -/
def Fields.readItems (name : String) (count : Nat) :
    (fields : Fields) → (place : Nat) → List Token → Except Fault (fields.Value × List Token)
  | .nil, _, tokens => .ok (⟨⟩, tokens)
  | .cons _ schema presence rest, place, tokens => do
      let (more, tokens) ← Json.readListStep (place == 0) tokens
      let (value, tokens) ←
        if more then schema.read tokens
        else match schema.absent? presence with
          | some value => .ok (value, tokens)
          | none => .error (.wrongLength place (recordOfLength name count))
      let (others, tokens) ← rest.readItems name count (place + 1) tokens
      return ((value, others), tokens)

end

/-- Read a whole document. -/
def Schema.ofJson (schema : Schema) (text : List Text.Glyph) : Except Fault schema.Value := do
  match ← schema.read (Json.tokens text) with
  | (value, []) => return value
  | (_, _ :: _) => .error .trailingCharacters

/-! ## Writing -/

def labelAt (names : List String) (place : Fin names.length) : String := names[place]

mutual

/-- A part of a document as JSON. -/
def Schema.toJson : (schema : Schema) → schema.Value → Json
  | .text, value => .text value
  | .flag, value => .bool value
  | .label names, place => .text (labelAt names place)
  | .optional _, none => .null
  | .optional inner, some value => inner.toJson value
  | .sequence item, values => .array (values.map item.toJson)
  | .table, entries => .object (entries.map fun (key, value) => (key, .text value))
  | .record _ fields, values => .object (fields.members values)

/-- The fields of a record as the members of an object. -/
def Fields.members : (fields : Fields) → fields.Value → List (String × Json)
  | .nil, _ => []
  | .cons key schema presence rest, (value, values) =>
      if presence = .elided ∧ schema.isNone value then rest.members values
      else (key, schema.toJson value) :: rest.members values

end

end ProgramModel
