/-
# ProgramModel.Proofs.CoordinateGrammar -- which texts are coordinates, and of which artifacts

A coordinate is three parts with colons between them and blanks around them.  Dividing a text
at its colons gives parts without colons, and joining such parts and dividing again gives the
parts (`parts_eq_splitOn`).  Trimming takes away blanks at the ends until no blank is there, and
nothing else (`Text.trimChars_eq_iff`); what it leaves is divided.

So the texts that are read are exactly those that say three such parts
(`ofCoordinate?_eq_some_iff`).  A blank beside a colon belongs to the part that it touches, and a
part may consist of blanks.  What is lost is only what trimming takes: an artifact is read back
from its coordinate when its parts are such parts, no blank begins the first of them and none ends
the last (`coordinates_are_exact`).
-/
import ProgramModel.Proofs.Coordinates

namespace ProgramModel

set_option autoImplicit false

/-! ## What trimming leaves -/

namespace Text

/-- No blank begins the text. -/
def OpensSolid (text : List Char) : Prop := ∀ c, text.head? = some c → isBlank c = false

/-- No blank ends the text. -/
def ClosesSolid (text : List Char) : Prop := ∀ c, text.getLast? = some c → isBlank c = false

variable {text whole : List Char}

theorem opensSolid_reverse : OpensSolid text.reverse ↔ ClosesSolid text := by
  simp only [OpensSolid, ClosesSolid, List.head?_reverse]

theorem dropWhile_eq_self_iff : text.dropWhile isBlank = text ↔ OpensSolid text := by
  cases text <;> simp [List.dropWhile_eq_self_iff, OpensSolid]

theorem opensSolid_dropWhile (text : List Char) : OpensSolid (text.dropWhile isBlank) :=
  dropWhile_eq_self_iff.mp (List.dropWhile_idempotent isBlank text)

/-- Blanks in front are dropped up to the first character that is none. -/
theorem dropWhile_eq_iff : whole.dropWhile isBlank = text ↔
    OpensSolid text ∧ ∃ before, (∀ c ∈ before, isBlank c = true) ∧ whole = before ++ text := by
  constructor
  · rintro rfl
    exact ⟨opensSolid_dropWhile whole, whole.takeWhile isBlank,
      fun c there => List.mem_takeWhile_imp there, List.takeWhile_append_dropWhile.symm⟩
  · rintro ⟨solid, before, blank, rfl⟩
    rw [List.dropWhile_append_of_pos blank, dropWhile_eq_self_iff.mpr solid]

/-- A text keeps its front when something is put behind it. -/
theorem OpensSolid.append (solid : OpensSolid text) (nonempty : text ≠ []) (after : List Char) :
    OpensSolid (text ++ after) := by
  obtain ⟨first, rest, rfl⟩ := List.exists_cons_of_ne_nil nonempty
  exact solid

/-- **Trimming takes blanks away at both ends until none is there, and nothing else.** -/
theorem trimChars_eq_iff : trimChars whole = text ↔ OpensSolid text ∧ ClosesSolid text ∧
    ∃ before after, (∀ c ∈ before, isBlank c = true) ∧ (∀ c ∈ after, isBlank c = true) ∧
      whole = before ++ text ++ after := by
  constructor
  · rintro rfl
    obtain ⟨-, before, front, opened⟩ := dropWhile_eq_iff.mp (Eq.refl (whole.dropWhile isBlank))
    obtain ⟨closes, after, back, closed⟩ :=
      dropWhile_eq_iff.mp (Eq.refl ((whole.dropWhile isBlank).reverse.dropWhile isBlank))
    have kept : whole.dropWhile isBlank = trimChars whole ++ after.reverse := by
      have turned := congrArg List.reverse closed
      rwa [List.reverse_reverse, List.reverse_append] at turned
    refine ⟨dropWhile_eq_self_iff.mp (dropWhile_trimChars whole), ?_, before, after.reverse, front,
      fun c there => back c (List.mem_reverse.mp there), ?_⟩
    · rw [← opensSolid_reverse, trimChars, List.reverse_reverse]
      exact closes
    · rw [List.append_assoc, ← kept]
      exact opened
  · rintro ⟨opens, closes, before, after, front, back, rfl⟩
    by_cases empty : text = []
    · subst empty
      have blank : ∀ c ∈ before ++ [] ++ after, isBlank c = true := by
        simpa [or_imp, forall_and] using ⟨front, back⟩
      rw [trimChars, List.dropWhile_eq_nil_iff.mpr blank]
      rfl
    · have opened : (before ++ text ++ after).dropWhile isBlank = text ++ after :=
        dropWhile_eq_iff.mpr
          ⟨opens.append empty after, before, front, List.append_assoc before text after⟩
      have closed : (text ++ after).reverse.dropWhile isBlank = text.reverse :=
        dropWhile_eq_iff.mpr ⟨opensSolid_reverse.mpr closes, after.reverse,
          fun c there => back c (List.mem_reverse.mp there), List.reverse_append⟩
      rw [trimChars, opened, closed, List.reverse_reverse]

/-- What has no blanks at its ends is left as it is. -/
theorem trimChars_eq_self_iff : trimChars text = text ↔ OpensSolid text ∧ ClosesSolid text := by
  rw [trimChars_eq_iff]
  constructor
  · rintro ⟨opens, closes, -⟩
    exact ⟨opens, closes⟩
  · rintro ⟨opens, closes⟩
    exact ⟨opens, closes, [], [], by simp⟩

end Text

/-! ## Parts -/

namespace ArtifactRecord

/-- What can stand between two colons of a coordinate. -/
structure IsPart (part : String) : Prop where
  nonempty : part ≠ ""
  colonless : ':' ∉ part.toList

/-- The three parts of an artifact can stand in a coordinate. -/
structure HasParts (artifact : ArtifactRecord) : Prop where
  group : IsPart artifact.group
  name : IsPart artifact.name
  version : IsPart artifact.version

theorem parts_eq_splitOn (text : List Char) : parts text = text.splitOn ':' := by
  induction text with
  | nil => rfl
  | cons c rest ih =>
      rw [List.splitOn_eq_splitOnP, List.splitOnP_cons_eq_if_modifyHead,
        ← List.splitOn_eq_splitOnP, ← ih]
      by_cases colon : c = ':'
      · rw [parts, if_pos colon, if_pos (beq_iff_eq.mpr colon)]
      · rw [parts, if_neg colon, if_neg (by simpa using colon)]
        cases divided : parts rest with
        | nil => exact absurd divided (parts_ne_nil rest)
        | cons part others => rfl

/-- No part has a colon in it. -/
theorem colonless_of_mem_parts {text part : List Char} (there : part ∈ parts text) :
    ':' ∉ part := by
  induction text generalizing part with
  | nil => simp_all [parts]
  | cons c rest ih =>
      by_cases colon : c = ':'
      · rw [parts, if_pos colon] at there
        rcases List.mem_cons.mp there with rfl | later
        · exact List.not_mem_nil
        · exact ih later
      · cases divided : parts rest with
        | nil => exact absurd divided (parts_ne_nil rest)
        | cons first others =>
            rw [parts, if_neg colon, divided] at there
            rw [divided] at ih
            rcases List.mem_cons.mp there with rfl | later
            · -- The character goes in front of the first part, and is no colon itself.
              have kept := ih List.mem_cons_self
              simp [Ne.symm colon, kept]
            · exact ih (List.mem_cons_of_mem _ later)

/-- The characters of a coordinate are its parts with colons between them. -/
theorem toList_coordinate (artifact : ArtifactRecord) : artifact.coordinate.toList =
    [':'].intercalate [artifact.group.toList, artifact.name.toList, artifact.version.toList] := by
  simp [coordinate, List.intercalate]

/-- Parts that can stand in a coordinate are what it is divided into. -/
theorem HasParts.parts_coordinate {artifact : ArtifactRecord} (separate : artifact.HasParts) :
    parts artifact.coordinate.toList =
      [artifact.group.toList, artifact.name.toList, artifact.version.toList] := by
  rw [toList_coordinate, parts_eq_splitOn]
  refine List.splitOn_intercalate ':' ?_ (List.cons_ne_nil _ _)
  simpa using ⟨separate.group.colonless, separate.name.colonless, separate.version.colonless⟩

theorem isPart_ofList {part : List Char} (nonempty : part ≠ []) (colonless : ':' ∉ part) :
    IsPart (String.ofList part) where
  nonempty empty := nonempty (by simpa using congrArg String.toList empty)
  colonless := by rwa [String.toList_ofList]

/-- **A text is read as an artifact exactly when the artifact has parts that can stand in a
coordinate, and its coordinate is the text without the blanks around it.** -/
theorem ofCoordinate?_eq_some_iff {text : String} {artifact : ArtifactRecord} :
    ofCoordinate? text = some artifact ↔
      artifact.HasParts ∧ artifact.coordinate = Text.trim text := by
  constructor
  · intro reads
    refine ⟨?_, coordinate_of_ofCoordinate? reads⟩
    unfold ofCoordinate? at reads
    split at reads
    · rename_i group name version divided
      have colonless : ∀ part ∈ [group, name, version], ':' ∉ part := by
        rw [← divided]
        exact fun part => colonless_of_mem_parts
      split at reads
      · rename_i nonempty
        cases reads
        exact ⟨isPart_ofList nonempty.1 (colonless group (by simp)),
          isPart_ofList nonempty.2.1 (colonless name (by simp)),
          isPart_ofList nonempty.2.2 (colonless version (by simp))⟩
      · cases reads
    · cases reads
  · rintro ⟨separate, spelt⟩
    have divided := separate.parts_coordinate
    rw [spelt, Text.trim, String.toList_ofList] at divided
    unfold ofCoordinate?
    rw [divided]
    simp [separate.group.nonempty, separate.name.nonempty, separate.version.nonempty]

theorem HasParts.opensSolid_iff {artifact : ArtifactRecord} (separate : artifact.HasParts) :
    Text.OpensSolid artifact.coordinate.toList ↔ Text.OpensSolid artifact.group.toList := by
  obtain ⟨first, rest, shape⟩ := List.exists_cons_of_ne_nil
    (mt String.toList_eq_nil_iff.mp separate.group.nonempty)
  simp [coordinate, Text.OpensSolid, shape]

theorem HasParts.closesSolid_iff {artifact : ArtifactRecord} (separate : artifact.HasParts) :
    Text.ClosesSolid artifact.coordinate.toList ↔ Text.ClosesSolid artifact.version.toList := by
  have nonempty := mt String.toList_eq_nil_iff.mp separate.version.nonempty
  have last : artifact.coordinate.toList.getLast? = artifact.version.toList.getLast? := by
    rw [coordinate, String.toList_append]
    exact List.getLast?_append_of_ne_nil _ nonempty
  rw [Text.ClosesSolid, Text.ClosesSolid, last]

/-- **An artifact is read back from its coordinate unless trimming or a colon gets in the way.** -/
theorem ofCoordinate?_coordinate_iff {artifact : ArtifactRecord} :
    ofCoordinate? artifact.coordinate = some artifact ↔ artifact.HasParts ∧
      Text.OpensSolid artifact.group.toList ∧ Text.ClosesSolid artifact.version.toList := by
  rw [ofCoordinate?_eq_some_iff]
  refine and_congr_right fun separate => ?_
  have whole : artifact.coordinate = Text.trim artifact.coordinate ↔
      Text.trimChars artifact.coordinate.toList = artifact.coordinate.toList := by
    rw [Text.trim, ← String.toList_inj, String.toList_ofList, eq_comm]
  rw [whole, Text.trimChars_eq_self_iff, separate.opensSolid_iff, separate.closesSolid_iff]

end ArtifactRecord

open ArtifactRecord (IsPart ofCoordinate?)

/-- **The grammar of coordinates, and both round trips.**  A text is read exactly when, without the
blanks around it, it is three parts with colons between them that are not empty and have no colons
in them.  The artifact that is read says the text without those blanks and is read back from what it
says.  An artifact is read back from its coordinate exactly when it has three such parts, of which
no blank begins the first and none ends the last; from the coordinate of any other artifact another
one is read, or none. -/
theorem coordinates_are_exact :
    (∀ text, (∃ artifact, ofCoordinate? text = some artifact) ↔
      ∃ group name version, IsPart group ∧ IsPart name ∧ IsPart version ∧
        Text.trim text = group ++ ":" ++ name ++ ":" ++ version) ∧
    (∀ text artifact, ofCoordinate? text = some artifact →
      artifact.coordinate = Text.trim text ∧
      ofCoordinate? artifact.coordinate = some artifact) ∧
    (∀ artifact : ArtifactRecord, ofCoordinate? artifact.coordinate = some artifact ↔
      artifact.HasParts ∧ Text.OpensSolid artifact.group.toList ∧
        Text.ClosesSolid artifact.version.toList) ∧
    (∀ whole text : List Char, Text.trimChars whole = text ↔
      Text.OpensSolid text ∧ Text.ClosesSolid text ∧
      ∃ before after, (∀ c ∈ before, Text.isBlank c = true) ∧
        (∀ c ∈ after, Text.isBlank c = true) ∧ whole = before ++ text ++ after) := by
  refine ⟨?_, ?_, fun _ => ArtifactRecord.ofCoordinate?_coordinate_iff,
    fun _ _ => Text.trimChars_eq_iff⟩
  · intro text
    constructor
    · rintro ⟨artifact, reads⟩
      obtain ⟨separate, spelt⟩ := ArtifactRecord.ofCoordinate?_eq_some_iff.mp reads
      exact ⟨_, _, _, separate.group, separate.name, separate.version, spelt.symm⟩
    · rintro ⟨group, name, version, first, second, third, spelt⟩
      exact ⟨⟨group, name, version⟩,
        ArtifactRecord.ofCoordinate?_eq_some_iff.mpr ⟨⟨first, second, third⟩, spelt.symm⟩⟩
  · intro text artifact reads
    exact ⟨ArtifactRecord.coordinate_of_ofCoordinate? reads,
      ArtifactRecord.ofCoordinate?_coordinate reads⟩

/-- Blanks of several kinds around a coordinate are taken away, and a blank between its colons is
the name of the artifact. -/
theorem coordinates_are_exact_blank :
    ofCoordinate? "\u00a0\tg: :1\u3000\n" = some ⟨"g", " ", "1"⟩ ∧
    ofCoordinate? "g: :1" = some ⟨"g", " ", "1"⟩ ∧
    ofCoordinate? (ArtifactRecord.coordinate ⟨" g", "a", "1"⟩) ≠ some ⟨" g", "a", "1"⟩ := by
  have reads : ofCoordinate? "\u00a0\tg: :1\u3000\n" = some ⟨"g", " ", "1"⟩ := by decide
  obtain ⟨-, again, domain, -⟩ := coordinates_are_exact
  refine ⟨reads, (again _ _ reads).2, fun same => ?_⟩
  obtain ⟨-, opens, -⟩ := (domain ⟨" g", "a", "1"⟩).mp same
  have blank := opens ' ' rfl
  cases blank

end ProgramModel
