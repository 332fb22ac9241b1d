/-
# ProgramModel.Artifact -- artifacts and their coordinates

An artifact is one analysed binary unit, known by group, name and version.  Its
coordinate `group:name:version` is the id under which classes and methods refer
to it.  A coordinate is read without the blanks around it and has exactly three
parts, none of them empty.
-/
import ProgramModel.Sorted.Order
import ProgramModel.Text.Blank

namespace ProgramModel

set_option autoImplicit false

/-- One analysed binary unit. -/
structure ArtifactRecord where
  group : String
  name : String
  version : String
  deriving DecidableEq, Repr, Inhabited

namespace ArtifactRecord

/-! ## Order -/

/-- Artifacts ascend by group, then name, then version. -/
instance : Ord ArtifactRecord where
  compare := compareLex (compareOn group) (compareLex (compareOn name) (compareOn version))

instance : Std.TransOrd ArtifactRecord :=
  inferInstanceAs (Std.TransCmp
    (compareLex (compareOn group) (compareLex (compareOn name) (compareOn version))))

instance : Std.LawfulEqOrd ArtifactRecord where
  compare_self {a} := @Std.ReflCmp.compare_self _
    (compareLex (compareOn group) (compareLex (compareOn name) (compareOn version))) _ a
  eq_of_compare {a b} equal := by
    obtain ⟨groups, rest⟩ := compareLex_eq equal
    obtain ⟨names, versions⟩ := compareLex_eq rest
    cases a; cases b
    cases compareOn_eq groups; cases compareOn_eq names; cases compareOn_eq versions
    rfl

/-! ## Coordinates -/

/-- The coordinate `group:name:version`. -/
def coordinate (artifact : ArtifactRecord) : String :=
  artifact.group ++ ":" ++ artifact.name ++ ":" ++ artifact.version

instance : ToString ArtifactRecord := ⟨coordinate⟩

/-- The parts of a text between its colons; there is always one more part than there are colons. -/
def parts : List Char → List (List Char)
  | [] => [[]]
  | c :: rest =>
      if c = ':' then [] :: parts rest
      else match parts rest with
        | [] => [[c]]
        | part :: others => (c :: part) :: others

/-- Read a coordinate. -/
def ofCoordinate? (text : String) : Option ArtifactRecord :=
  match parts (Text.trimChars text.toList) with
  | [group, name, version] =>
      if group ≠ [] ∧ name ≠ [] ∧ version ≠ [] then
        some ⟨String.ofList group, String.ofList name, String.ofList version⟩
      else none
  | _ => none

/-- What is said of a text that is no coordinate. -/
def coordinateFault (text : String) : String :=
  "invalid artifact coordinate \"" ++ text ++ "\", expected group:name:version"

end ArtifactRecord

end ProgramModel
