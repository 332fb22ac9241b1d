/-
# ProgramModel.Proofs.Coordinates -- how far artifact ids are coordinates

The table of a bundle gives artifact ids as text, and a bundle is accepted only if each of
them can be read as a coordinate.  What reads it takes the blanks around it away
(`coordinate_of_ofCoordinate?`), but what was read is not kept: the text of the table goes
into the index as it stands, and from there into class records and methods.

So every id of a package is the text of a coordinate, which is known up to blanks around it
(`artifactIds_are_coordinates`).  Where the table has no such blanks the ids are the
coordinates themselves, one id for each; where it has some they are not, and one artifact
goes by two ids (`artifactIds_keep_blanks`).
-/
import Mathlib.Data.List.DropRight
import ProgramModel.Proofs.Attributions
import ProgramModel.Proofs.Bundles

namespace ProgramModel

set_option autoImplicit false

/-! ## Blanks -/

namespace Text

/-- What is left has no blanks in front. -/
theorem dropWhile_trimChars (text : List Char) :
    (trimChars text).dropWhile isBlank = trimChars text := by
  have front : trimChars text <+: text.dropWhile isBlank := List.rdropWhile_prefix isBlank _
  cases shape : trimChars text with
  | nil => rfl
  | cons first rest =>
      rw [shape] at front
      obtain ⟨further, same⟩ := front
      have kept : isBlank first = false := by
        have head := List.head?_dropWhile_not isBlank text
        rw [← same] at head
        exact head
      exact List.dropWhile_cons_of_neg (by simp [kept])

/-- Nothing is trimmed twice. -/
theorem trimChars_trimChars (text : List Char) : trimChars (trimChars text) = trimChars text := by
  have behind : (trimChars text).rdropWhile isBlank = trimChars text :=
    List.rdropWhile_idempotent isBlank _
  calc trimChars (trimChars text)
      = ((trimChars text).dropWhile isBlank).rdropWhile isBlank := rfl
    _ = trimChars text := by rw [dropWhile_trimChars, behind]

end Text

/-! ## Coordinates -/

namespace ArtifactRecord

theorem parts_ne_nil (text : List Char) : parts text ≠ [] := by
  cases text with
  | nil => simp [parts]
  | cons c rest =>
      unfold parts
      split
      · simp
      · split <;> simp

/-- The parts of a text, with colons between them, are the text. -/
theorem intercalate_parts (text : List Char) : [':'].intercalate (parts text) = text := by
  induction text with
  | nil => rfl
  | cons c rest ih =>
      cases divided : parts rest with
      | nil => exact absurd divided (parts_ne_nil rest)
      | cons part others =>
          rw [divided] at ih
          by_cases colon : c = ':'
          · subst colon
            rw [parts, if_pos rfl, divided, List.intercalate_cons_cons, ih]
            rfl
          · rw [parts, if_neg colon, divided]
            cases others with
            | nil => simpa using ih
            | cons next further =>
                rw [List.intercalate_cons_cons] at ih ⊢
                rw [← ih]
                rfl

/-- **A coordinate says the text that it was read from, without the blanks around it.** -/
theorem coordinate_of_ofCoordinate? {text : String} {artifact : ArtifactRecord}
    (reads : ofCoordinate? text = some artifact) : artifact.coordinate = Text.trim text := by
  have joined := intercalate_parts (Text.trimChars text.toList)
  unfold ofCoordinate? at reads
  split at reads
  · rename_i group name version divided
    split at reads
    · cases reads
      rw [divided] at joined
      unfold Text.trim coordinate
      rw [← joined]
      apply String.toList_injective
      simp
    · cases reads
  · cases reads

/-- Two texts of one coordinate differ in the blanks around it at most. -/
theorem trim_eq_of_ofCoordinate? {text other : String} {artifact : ArtifactRecord}
    (reads : ofCoordinate? text = some artifact) (also : ofCoordinate? other = some artifact) :
    Text.trim text = Text.trim other :=
  (coordinate_of_ofCoordinate? reads).symm.trans (coordinate_of_ofCoordinate? also)

/-- **The coordinate of an artifact that was read is read as that artifact.** -/
theorem ofCoordinate?_coordinate {text : String} {artifact : ArtifactRecord}
    (reads : ofCoordinate? text = some artifact) :
    ofCoordinate? artifact.coordinate = some artifact := by
  rw [coordinate_of_ofCoordinate? reads, ← reads]
  unfold ofCoordinate? Text.trim
  rw [String.toList_ofList, Text.trimChars_trimChars]

end ArtifactRecord

/-! ## Ids from the table to the package -/

theorem ArtifactIndex.mem_of_foldl_insert {entries : List (String × String)}
    {index : ArtifactIndex} {name artifact : String}
    (found : (entries.foldl (fun index entry => index.insert (qualifiedName entry.1) entry.2)
      index).classes.get? name = some artifact) :
    (∃ entry ∈ entries, entry.2 = artifact) ∨ index.classes.get? name = some artifact := by
  induction entries generalizing index with
  | nil => exact .inr found
  | cons entry rest ih =>
      rcases ih found with ⟨later, listed, same⟩ | earlier
      · exact .inl ⟨later, List.mem_cons_of_mem _ listed, same⟩
      · unfold insert at earlier
        rw [SortedMap.get?_insert] at earlier
        split at earlier
        · exact .inl ⟨entry, List.mem_cons_self, Option.some.inj earlier⟩
        · exact .inr earlier

/-- What an index finds is a text of its table. -/
theorem ArtifactIndex.mem_of_ofTable {table : SortedMap String String} {name artifact : String}
    (found : (ofTable table).classes.get? name = some artifact) :
    ∃ entry ∈ table.toList, entry.2 = artifact := by
  rcases mem_of_foldl_insert found with listed | missing
  · exact listed
  · cases missing

/-- The artifact id stands in a class record or in a method. -/
def Package.Mentions (package : Package) (id : String) : Prop :=
  (∃ name record, package.classRecord? name = some record ∧ record.artifact = some id) ∨
  ∃ place method, package.methods.get? place = some method ∧ method.identity.artifact = some id

/-- Where all attributions are those of an index, the index is where an id comes from. -/
theorem Package.Attributed.entry_of_mentions {index : ArtifactIndex} {package : Package}
    (attributed : package.Attributed index) {id : String} (mentions : package.Mentions id) :
    ∃ name, index.classes.get? name = some id := by
  rcases mentions with ⟨name, record, there, artifact⟩ | ⟨place, method, there, artifact⟩
  · exact ⟨name, (attributed.records name record there).2.symm.trans artifact⟩
  · have resolved : method.identity.isResolved = true := by
      rw [MethodIdentity.isResolved, artifact]
      rfl
    have entry := attributed.methods place method.identity
      (MethodRegistry.denotes_iff.mpr ⟨method, there, rfl⟩) resolved
    exact ⟨method.identity.owner, entry.symm.trans artifact⟩

namespace AnalysisBundle

/-- In a valid bundle every id of the table is the text of a coordinate. -/
theorem coordinate_of_valid {bundle : AnalysisBundle} (valid : bundle.validate = .ok bundle)
    {entry : String × String} (listed : entry ∈ bundle.classArtifacts.toList) :
    ∃ artifact, ArtifactRecord.ofCoordinate? entry.2 = some artifact := by
  unfold validate at valid
  split at valid
  · cases valid
  · rename_i clean
    have reads := List.find?_eq_none.mp clean entry listed
    rwa [Option.isNone_iff_eq_none, ← ne_eq, Option.ne_none_iff_exists'] at reads

theorem valid_of_loads {text : List Char} {loaded : Logged AnalysisBundle}
    (loads : ofJson text = .ok loaded ∨ ofYaml text = .ok loaded) :
    loaded.value.validate = .ok loaded.value := by
  rcases loads with json | yaml
  · obtain ⟨-, -, valid⟩ := ofJson_eq_ok json
    exact valid
  · obtain ⟨-, -, valid⟩ := ofYaml_eq_ok yaml
    exact valid

end AnalysisBundle

/-! ## Ids of a package -/

/-- **The artifact ids of a package are coordinates, but for blanks around them.**  Whichever text
a bundle was loaded from, every id that its package mentions is read as a coordinate, which says
the id without the blanks around it and is itself read as what it was read from.  If no id of the
bundle's table has blanks around it, the ids are the coordinates themselves, and ids of one
coordinate are one id. -/
theorem artifactIds_are_coordinates {text : List Char} {loaded : Logged AnalysisBundle}
    (loads : AnalysisBundle.ofJson text = .ok loaded ∨ AnalysisBundle.ofYaml text = .ok loaded)
    {built : Logged Package} (success : Package.ofBundle loaded.value = .ok built) :
    (∀ id, built.value.Mentions id → ∃ artifact, ArtifactRecord.ofCoordinate? id = some artifact ∧
      artifact.coordinate = Text.trim id ∧
      ArtifactRecord.ofCoordinate? artifact.coordinate = some artifact) ∧
    ((∀ entry ∈ loaded.value.classArtifacts.toList, Text.trim entry.2 = entry.2) →
      (∀ id, built.value.Mentions id → ∃ artifact,
        ArtifactRecord.ofCoordinate? id = some artifact ∧ artifact.coordinate = id) ∧
      ∀ id other artifact, built.value.Mentions id → built.value.Mentions other →
        ArtifactRecord.ofCoordinate? id = some artifact →
        ArtifactRecord.ofCoordinate? other = some artifact → id = other) := by
  have attributed := Package.attributed_ofBundle success
  have listed {id : String} (mentions : built.value.Mentions id) :
      ∃ entry ∈ loaded.value.classArtifacts.toList, entry.2 = id := by
    obtain ⟨name, found⟩ := attributed.entry_of_mentions mentions
    exact ArtifactIndex.mem_of_ofTable found
  have reads {id : String} (mentions : built.value.Mentions id) :
      ∃ artifact, ArtifactRecord.ofCoordinate? id = some artifact := by
    obtain ⟨entry, there, rfl⟩ := listed mentions
    exact AnalysisBundle.coordinate_of_valid (AnalysisBundle.valid_of_loads loads) there
  refine ⟨?_, ?_⟩
  · intro id mentions
    obtain ⟨artifact, read⟩ := reads mentions
    exact ⟨artifact, read, ArtifactRecord.coordinate_of_ofCoordinate? read,
      ArtifactRecord.ofCoordinate?_coordinate read⟩
  · intro bare
    have trimmed {id : String} (mentions : built.value.Mentions id) : Text.trim id = id := by
      obtain ⟨entry, there, rfl⟩ := listed mentions
      exact bare entry there
    refine ⟨?_, ?_⟩
    · intro id mentions
      obtain ⟨artifact, read⟩ := reads mentions
      refine ⟨artifact, read, ?_⟩
      rw [ArtifactRecord.coordinate_of_ofCoordinate? read, trimmed mentions]
    · intro id other artifact mentions also read again
      rw [← trimmed mentions, ← trimmed also]
      exact ArtifactRecord.trim_eq_of_ofCoordinate? read again

/-- A class with one method, as it stands in a bundle. -/
def listedClass (name : String) : Json :=
  .object [
    ("reference", .object [("name", .text name), ("scope", .text "Application")]),
    ("methods", .array [.object [("selector", .text "run()V")]])]

/-- A bundle of two classes of one artifact, the id of which is given once as it is, and for the
other class as the given text. -/
def twoEntries (id : String) : List Char :=
  Json.chars .compact <| .object [
    ("classArtifacts", .object [("a.A", .text id), ("a.B", .text "g:a:1")]),
    ("analyses", .array [.object [
      ("artifact", .object [("group", .text "g"), ("name", .text "a"), ("version", .text "1")]),
      ("hierarchy", .object [("classes", .array [listedClass "a.A", listedClass "a.B"])]),
      ("callGraph", .object [("edges", .array [])])]])]

/-- The two classes, as they are listed. -/
def twoClasses : List ClassNode :=
  [{ reference := ⟨"a.A", .application⟩, methods := [{ selector := "run()V" }] },
   { reference := ⟨"a.B", .application⟩, methods := [{ selector := "run()V" }] }]

/-- The analysis of the one artifact. -/
def twoClassesInput : CompleteAnalysis := ⟨⟨"g", "a", "1"⟩, ⟨twoClasses⟩, {}⟩

/-- What the bundle means. -/
def twoEntriesBundle (id : String) : AnalysisBundle where
  classArtifacts := SortedMap.ofList [("a.A", id), ("a.B", "g:a:1")]
  analyses := [twoClassesInput.analysis]

/-- A text of the bundle is loaded and built. -/
theorem builds_twoEntries (id : String)
    (means : (AnalysisBundle.ofJson (twoEntries id)).toOption.map Logged.value =
      some (twoEntriesBundle id)) :
    ∃ loaded built, AnalysisBundle.ofJson (twoEntries id) = .ok loaded ∧
      loaded.value = twoEntriesBundle id ∧ Package.ofBundle loaded.value = .ok built := by
  obtain ⟨built, success, -⟩ :=
    Package.ofAnalyses_complete (twoEntriesBundle id).index.resolver [twoClassesInput]
  cases loads : AnalysisBundle.ofJson (twoEntries id) with
  | error fault =>
      rw [loads] at means
      cases means
  | ok loaded =>
      rw [loads] at means
      have same : loaded.value = twoEntriesBundle id := Option.some.inj means
      refine ⟨loaded, built, rfl, same, ?_⟩
      rw [same]
      exact success

/-- Its package mentions each id under which the index has one of the classes. -/
theorem mentions_twoEntries {bundle : AnalysisBundle} {id artifact : String}
    (same : bundle = twoEntriesBundle id) {built : Logged Package}
    (success : Package.ofBundle bundle = .ok built) {node : ClassNode} (listed : node ∈ twoClasses)
    (entry : (twoEntriesBundle id).index.classes.get? node.qualifiedName = some artifact) :
    built.value.Mentions artifact := by
  subst same
  let resolver := (twoEntriesBundle id).index.resolver
  have met : (⟨resolver, ⟨twoClasses⟩, node⟩ : Placement) ∈
      resolver.placements (twoEntriesBundle id).analyses :=
    ArtifactResolver.mem_placements.mpr ⟨rfl, List.mem_cons_self, listed⟩
  obtain ⟨first, earliest⟩ := Placement.exists_first? met
  obtain ⟨record, recorded, -, -⟩ := Package.records_ofAnalyses success earliest
  have attributed := Package.attributed_ofBundle success
  exact .inl ⟨_, record, recorded, (attributed.records _ record recorded).2.trans entry⟩

/-- Without blanks around it, the one id of the two classes is the coordinate. -/
theorem artifactIds_are_coordinates_bare :
    ∃ loaded built, AnalysisBundle.ofJson (twoEntries "g:a:1") = .ok loaded ∧
      Package.ofBundle loaded.value = .ok built ∧
      (∀ entry ∈ loaded.value.classArtifacts.toList, Text.trim entry.2 = entry.2) ∧
      built.value.Mentions "g:a:1" ∧
      ∃ artifact, ArtifactRecord.ofCoordinate? "g:a:1" = some artifact ∧
        artifact.coordinate = "g:a:1" := by
  obtain ⟨loaded, built, loads, same, success⟩ := builds_twoEntries "g:a:1" (by decide +kernel)
  have bare : ∀ entry ∈ loaded.value.classArtifacts.toList, Text.trim entry.2 = entry.2 := by
    rw [same]
    decide +kernel
  have mentions : built.value.Mentions "g:a:1" :=
    mentions_twoEntries same success List.mem_cons_self (by decide +kernel)
  obtain ⟨coordinates, -⟩ := (artifactIds_are_coordinates (.inl loads) success).2 bare
  exact ⟨loaded, built, loads, success, bare, mentions, coordinates _ mentions⟩

/-- With blanks around it the id is kept as it stands: it is read as a coordinate that is not this
id, and the other class of the artifact goes by another id of the same coordinate. -/
theorem artifactIds_keep_blanks :
    ∃ loaded built artifact, AnalysisBundle.ofJson (twoEntries " g:a:1 ") = .ok loaded ∧
      Package.ofBundle loaded.value = .ok built ∧
      built.value.Mentions " g:a:1 " ∧ built.value.Mentions "g:a:1" ∧
      ArtifactRecord.ofCoordinate? " g:a:1 " = some artifact ∧
      ArtifactRecord.ofCoordinate? "g:a:1" = some artifact ∧
      artifact.coordinate ≠ " g:a:1 " := by
  obtain ⟨loaded, built, loads, same, success⟩ := builds_twoEntries " g:a:1 " (by decide +kernel)
  have blanked : built.value.Mentions " g:a:1 " :=
    mentions_twoEntries same success List.mem_cons_self (by decide +kernel)
  have bare : built.value.Mentions "g:a:1" :=
    mentions_twoEntries same success (List.mem_cons_of_mem _ List.mem_cons_self)
      (by decide +kernel)
  refine ⟨loaded, built, ⟨"g", "a", "1"⟩, loads, success, blanked, bare, ?_, ?_, ?_⟩
  · decide +kernel
  · decide +kernel
  · decide +kernel

end ProgramModel
