/-
# ProgramModel.Format.Basic -- types with a written form

A `Format` ties a type to a schema: what a document of that shape means as a value
of the type, and which document a value is written as.  Reading a meaning may have
something to report; it never fails, since everything that can be wrong with a
document is wrong with its shape.
-/
import ProgramModel.Log
import ProgramModel.Schema.Json
import ProgramModel.Schema.Yaml
import ProgramModel.Sorted.Map
import ProgramModel.Sorted.Set

namespace ProgramModel

set_option autoImplicit false

structure Format (α : Type) where
  schema : Schema
  ofValue : schema.Value → Logged α
  toValue : α → schema.Value

namespace Format

variable {α : Type}

/-- Read a whole document that is written as JSON. -/
def ofJson (format : Format α) (text : List Text.Glyph) : Except Json.Fault (Logged α) :=
  (format.schema.ofJson text).map format.ofValue

/-- Read a whole document that is written as YAML. -/
def ofYaml? (format : Format α) (text : List Char) : Option (Logged α) :=
  (format.schema.ofYaml text).map format.ofValue

def toJson (format : Format α) (value : α) : Json := format.schema.toJson (format.toValue value)

/-! ## Simple and composed formats -/

def text : Format String where
  schema := .text
  ofValue value := pure value
  toValue value := value

def flag : Format Bool where
  schema := .flag
  ofValue value := pure value
  toValue value := value

/-- A value that may be absent. -/
def optional (format : Format α) : Format (Option α) where
  schema := .optional format.schema
  ofValue := fun
    | none => pure none
    | some value => some <$> format.ofValue value
  toValue value := value.map format.toValue

/-- Values in their order. -/
def list (format : Format α) : Format (List α) where
  schema := .sequence format.schema
  ofValue values := List.mapM format.ofValue values
  toValue values := List.map format.toValue values

/-- Values as a set: read in any order and any number, written once each in ascending order. -/
def set [Ord α] [Std.TransOrd α] (format : Format α) : Format (SortedSet α) where
  schema := .sequence format.schema
  ofValue values := SortedSet.ofList <$> List.mapM format.ofValue values
  toValue values := List.map format.toValue values.toList

/-- Texts by text; of two entries for a key the later one counts. -/
def table : Format (SortedMap String String) where
  schema := .table
  ofValue entries := pure (SortedMap.ofList entries)
  toValue map := map.toList

end Format

end ProgramModel
