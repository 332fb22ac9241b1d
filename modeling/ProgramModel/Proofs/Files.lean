/-
# ProgramModel.Proofs.Files -- where paths lead, and what a command leaves there

Whether a path can be followed depends on the directories that there are; where it leads
does not, so `destination` says it for every path and `locate` finds nothing else
(`locate_eq_destination`).  Names without a slash lead to different places in one
directory (`destination_join`).

Commands make directories and write files.  `Keeps` says what they leave as it was: every
directory, and every file that is not among the places written to.  So what could be
followed before can be followed after (`Keeps.locate`), and a file that was written is read
as it was written (`read_of_write`).
-/
import ProgramModel.Files.Tree

namespace ProgramModel

set_option autoImplicit false

/-- A sequence of two steps succeeds when both do. -/
theorem bind_eq_ok {ε α β : Type} {first : Except ε α} {next : α → Except ε β} {result : β} :
    first >>= next = .ok result ↔ ∃ value, first = .ok value ∧ next value = .ok result := by
  cases first with
  | error error =>
      constructor
      · intro goes
        cases goes
      · rintro ⟨_, goes, _⟩
        cases goes
  | ok value =>
      constructor
      · intro goes
        exact ⟨value, rfl, goes⟩
      · rintro ⟨_, same, goes⟩
        cases same
        exact goes

/-! ## Paths -/

namespace Path

theorem split_ne_nil (text : List Char) : split text ≠ [] := by
  cases text with
  | nil => simp [split]
  | cons c text =>
      rw [split]
      split
      · simp
      · split <;> simp

theorem split_append_slash (before after : List Char) :
    split (before ++ '/' :: after) = split before ++ split after := by
  induction before with
  | nil => rfl
  | cons c before ih =>
      by_cases slash : c = '/'
      · simp [split, slash, ih]
      · cases parted : split before with
        | nil => exact absurd parted (split_ne_nil before)
        | cons part others => simp [split, slash, ih, parted]

theorem split_of_not_mem {text : List Char} (slashless : '/' ∉ text) : split text = [text] := by
  induction text with
  | nil => rfl
  | cons c text ih =>
      rw [List.mem_cons, not_or] at slashless
      obtain ⟨apart, slashless⟩ := slashless
      rw [split, if_neg (Ne.symm apart), ih slashless]

theorem not_mem_of_mem_split {text part : List Char} (there : part ∈ split text) :
    '/' ∉ part := by
  induction text generalizing part with
  | nil =>
      rw [split, List.mem_singleton] at there
      simp [there]
  | cons c text ih =>
      rw [split] at there
      split at there
      · rcases List.mem_cons.mp there with rfl | later
        · simp
        · exact ih later
      · rename_i slash
        cases parted : split text with
        | nil =>
            rw [parted] at there
            simp only [List.mem_singleton] at there
            simpa [there] using Ne.symm slash
        | cons first others =>
            rw [parted] at there ih
            rcases List.mem_cons.mp there with rfl | later
            · have inside := ih List.mem_cons_self
              simpa [Ne.symm slash] using inside
            · exact ih (List.mem_cons_of_mem _ later)

/-- The parts of a path have no slash in them. -/
theorem not_mem_of_mem_parts {path part : String} (there : part ∈ parts path) :
    '/' ∉ part.toList := by
  obtain ⟨text, parted, rfl⟩ := List.mem_map.mp there
  rw [String.toList_ofList]
  exact not_mem_of_mem_split parted

/-- A name without a slash is the last part of its path in a directory. -/
theorem parts_join (directory : String) :
    ∃ outer, ∀ name : String, '/' ∉ name.toList →
      parts (join directory name) = outer ++ [name] := by
  have last {name : String} (slashless : '/' ∉ name.toList) (before : List Char) :
      (split (before ++ '/' :: name.toList)).map String.ofList =
        (split before).map String.ofList ++ [name] := by
    rw [split_append_slash, split_of_not_mem slashless, List.map_append, List.map_singleton,
      String.ofList_toList]
  by_cases none_ : directory = ""
  · refine ⟨[], fun name slashless => ?_⟩
    have joined : join directory name = name := by simp [join, none_]
    rw [joined, parts, split_of_not_mem slashless]
    simp
  by_cases slashed : directory.toList.getLast? = some '/'
  · -- The directory brings the slash, so the part after it is the name.
    obtain ⟨before, ends⟩ := List.getLast?_eq_some_iff.mp slashed
    refine ⟨(split before).map String.ofList, fun name slashless => ?_⟩
    rw [join, if_pos (.inr slashed), parts, String.toList_append, ends, List.append_assoc]
    exact last slashless before
  · refine ⟨(split directory.toList).map String.ofList, fun name slashless => ?_⟩
    rw [join, if_neg (by simp [none_, slashed]), parts, String.toList_append, String.toList_append,
      List.append_assoc]
    exact last slashless directory.toList

theorem not_mem_of_mem_components {path part : String} (there : part ∈ components path) :
    '/' ∉ part.toList := by
  unfold components at there
  split at there
  · rcases List.mem_cons.mp there with rfl | proper
    · decide
    · exact not_mem_of_mem_parts (List.mem_filter.mp proper).1
  · exact not_mem_of_mem_parts (List.mem_filter.mp there).1

/-- A name that says something is the last component of its path in a directory. -/
theorem components_join (directory : String) :
    ∃ outer, ∀ name : String, '/' ∉ name.toList → isProper name = true →
      components (join directory name) = outer ++ [name] := by
  obtain ⟨outer, parts⟩ := parts_join directory
  let kept := outer.filter isProper
  refine ⟨if outer.head? = some "." then "." :: kept else kept, fun name slashless proper => ?_⟩
  have last : (outer ++ [name]).filter isProper = kept ++ [name] := by
    rw [List.filter_append, List.filter_cons_of_pos proper, List.filter_nil]
  have front : (outer ++ [name]).head? = some "." ↔ outer.head? = some "." := by
    cases outer with
    | nil =>
        have noDot : name ≠ "." := by
          rintro rfl
          exact absurd proper (by decide)
        simpa using noDot
    | cons first rest => rfl
  rw [components, parts name slashless, last]
  by_cases dotted : outer.head? = some "."
  · rw [if_pos (front.mpr dotted), if_pos dotted]
    rfl
  · rw [if_neg (mt front.mp dotted), if_neg dotted]

/-- Whether the path of a file starts from the root depends on its directory. -/
theorem isAbsolute_join (directory : String) {name : String} (slashless : '/' ∉ name.toList) :
    isAbsolute (join directory name) = isAbsolute directory := by
  have relative : name.toList.head? ≠ some '/' := fun first =>
    slashless (List.mem_of_head? first)
  cases chars : directory.toList with
  | nil =>
      have none_ : directory = "" := String.toList_eq_nil_iff.mp chars
      simpa [isAbsolute, join, none_] using relative
  | cons c rest =>
      unfold isAbsolute join
      split
      · rw [String.toList_append, chars]
        rfl
      · rw [String.toList_append, String.toList_append, chars]
        rfl

/-- The stem of a name stands at its front. -/
theorem divide?_eq_some {name before after : List Char}
    (divides : divide? name = some (before, after)) : name = before ++ '.' :: after := by
  induction name generalizing before with
  | nil => cases divides
  | cons c rest ih =>
      rw [divide?] at divides
      cases further : divide? rest with
      | some parts =>
          obtain ⟨front, back⟩ := parts
          rw [further] at divides
          cases divides
          rw [List.cons_append, ← ih further]
      | none =>
          rw [further] at divides
          by_cases dot : c = '.'
          · simp only [dot, if_true, Option.some.injEq, Prod.mk.injEq] at divides
            obtain ⟨rfl, rfl⟩ := divides
            rw [dot, List.nil_append]
          · simp [dot] at divides

theorem mem_stem_subset (name : String) :
    ∀ c ∈ (stemAndExtension name).1.toList, c ∈ name.toList := by
  intro c there
  unfold stemAndExtension at there
  split at there
  · rename_i first stem extension divides
    rw [String.toList_ofList] at there
    rw [divide?_eq_some divides]
    exact List.mem_append_left _ there
  · exact there

/-- The stem of the file that a path names has no slash in it. -/
theorem not_mem_of_stem? {path stem : String} (names : stem? path = some stem) :
    '/' ∉ stem.toList := by
  obtain ⟨name, last, rfl⟩ := Option.map_eq_some_iff.mp names
  have listed : name ∈ components path :=
    List.mem_of_getLast? (Option.eq_some_of_filter_eq_some last)
  exact fun inside => not_mem_of_mem_components listed (mem_stem_subset name _ inside)

end Path

/-! ## Where paths lead -/

namespace FileTree

/-- Where a part leads from a directory. -/
def advance (location : Location) (part : String) : Location :=
  if part = "" ∨ part = "." then location
  else if part = ".." then location.dropLast
  else location ++ [part]

/-- Where a path leads, if it can be followed. -/
def destination (tree : FileTree) (path : String) : Location :=
  (Path.parts path).foldl advance (tree.start path)

variable {tree later : FileTree} {location next place : Location} {path : String}

theorem expectDirectory_eq_ok :
    tree.expectDirectory location = .ok () ↔ tree.entry? location = some .directory := by
  unfold expectDirectory
  split
  · rename_i found
    simp [found]
  · rename_i found
    simp [found]
  · rename_i found
    simp [found]

theorem enter_eq_ok {part : String} (enters : tree.enter location part = .ok next) :
    tree.entry? location = some .directory ∧ next = advance location part := by
  obtain ⟨_, there, goes⟩ := bind_eq_ok.mp enters
  refine ⟨expectDirectory_eq_ok.mp there, ?_⟩
  unfold advance
  by_cases stays : part = "" ∨ part = "."
  · rw [if_pos stays] at goes ⊢
    cases goes
    rfl
  rw [if_neg stays] at goes ⊢
  by_cases back : part = ".."
  · rw [if_pos back] at goes ⊢
    cases goes
    rfl
  rw [if_neg back] at goes ⊢
  split at goes
  · cases goes
  · cases goes
    rfl

theorem follow_cons_eq_ok {part : String} {parts : List String} :
    tree.follow location (part :: parts) = .ok place ↔
      ∃ next, tree.enter location part = .ok next ∧ tree.follow next parts = .ok place := by
  unfold follow
  rw [List.foldlM_cons]
  exact bind_eq_ok

theorem follow_eq_ok {parts : List String} (follows : tree.follow location parts = .ok place) :
    place = parts.foldl advance location := by
  induction parts generalizing location with
  | nil =>
      cases follows
      rfl
  | cons part parts ih =>
      obtain ⟨next, enters, further⟩ := follow_cons_eq_ok.mp follows
      obtain ⟨-, rfl⟩ := enter_eq_ok enters
      exact ih further

/-- **A path that can be followed leads to its destination.** -/
theorem locate_eq_destination (locates : tree.locate path = .ok place) :
    place = tree.destination path := by
  unfold locate at locates
  split at locates
  · cases locates
  · exact follow_eq_ok locates

/-- Names without a slash lead to different places in one directory. -/
theorem destination_join (tree : FileTree) (directory : String) :
    ∃ outer : Location, ∀ name : String, '/' ∉ name.toList → name ≠ "" → name ≠ "." → name ≠ ".." →
      tree.destination (Path.join directory name) = outer ++ [name] := by
  obtain ⟨outer, parts⟩ := Path.parts_join directory
  let start := if Path.isAbsolute directory then [] else tree.workingDirectory
  refine ⟨outer.foldl advance start, fun name slashless some_ noDot noDots => ?_⟩
  have begins : tree.start (Path.join directory name) = start := by
    unfold FileTree.start
    rw [Path.isAbsolute_join directory slashless]
  rw [destination, parts name slashless, List.foldl_append, begins, List.foldl_cons,
    List.foldl_nil, advance]
  rw [if_neg (by simp [some_, noDot]), if_neg noDots]

/-! ## What stays -/

/-- The later tree has what the earlier one had, but for other files at some places. -/
structure Keeps (later earlier : FileTree) (written : List Location) : Prop where
  workingDirectory : later.workingDirectory = earlier.workingDirectory
  entries : ∀ location entry, earlier.entry? location = some entry →
    entry = .directory ∨ location ∉ written → later.entry? location = some entry

theorem Keeps.refl (tree : FileTree) (written : List Location) : tree.Keeps tree written :=
  ⟨rfl, fun _ _ there _ => there⟩

theorem Keeps.trans {last : FileTree} {first second : List Location}
    (after : last.Keeps later second) (before : later.Keeps tree first) :
    last.Keeps tree (first ++ second) where
  workingDirectory := after.workingDirectory.trans before.workingDirectory
  entries location entry there spared := by
    have middle := before.entries location entry there (spared.imp_right fun absent inside =>
      absent (List.mem_append_left _ inside))
    exact after.entries location entry middle (spared.imp_right fun absent inside =>
      absent (List.mem_append_right _ inside))

variable {written : List Location}

theorem Keeps.mono {more : List Location} (keeps : later.Keeps tree written)
    (inside : written ⊆ more) : later.Keeps tree more where
  workingDirectory := keeps.workingDirectory
  entries location entry there spared :=
    keeps.entries location entry there (spared.imp_right fun absent old => absent (inside old))

theorem Keeps.start (keeps : later.Keeps tree written) (path : String) :
    later.start path = tree.start path := by
  unfold FileTree.start
  rw [keeps.workingDirectory]

theorem Keeps.destination (keeps : later.Keeps tree written) (path : String) :
    later.destination path = tree.destination path := by
  unfold FileTree.destination
  rw [keeps.start]

theorem Keeps.enter (keeps : later.Keeps tree written) {part : String}
    (enters : tree.enter location part = .ok next) : later.enter location part = .ok next := by
  obtain ⟨directory, -⟩ := enter_eq_ok enters
  have before := expectDirectory_eq_ok.mpr directory
  have after := expectDirectory_eq_ok.mpr (keeps.entries location _ directory (.inl rfl))
  unfold FileTree.enter at enters ⊢
  rw [before] at enters
  rw [after]
  exact enters

theorem Keeps.follow (keeps : later.Keeps tree written) {parts : List String}
    (follows : tree.follow location parts = .ok place) :
    later.follow location parts = .ok place := by
  induction parts generalizing location with
  | nil => exact follows
  | cons part parts ih =>
      obtain ⟨next, enters, further⟩ := follow_cons_eq_ok.mp follows
      exact follow_cons_eq_ok.mpr ⟨next, keeps.enter enters, ih further⟩

/-- **What could be followed can still be followed.** -/
theorem Keeps.locate (keeps : later.Keeps tree written) (locates : tree.locate path = .ok place) :
    later.locate path = .ok place := by
  unfold FileTree.locate at locates ⊢
  split at locates
  · cases locates
  · rename_i short
    rw [if_neg short, keeps.start]
    exact keeps.follow locates

theorem read_eq_ok {content : List UInt8} :
    tree.read path = .ok content ↔
      ∃ place, tree.locate path = .ok place ∧ tree.entry? place = some (.file content) := by
  unfold read
  rw [bind_eq_ok]
  constructor
  · rintro ⟨place, locates, found⟩
    refine ⟨place, locates, ?_⟩
    split at found
    · rename_i old there
      cases found
      exact there
    · cases found
    · cases found
  · rintro ⟨place, locates, there⟩
    refine ⟨place, locates, ?_⟩
    rw [there]
    rfl

/-- A file that was not written to is read as before. -/
theorem Keeps.read {content : List UInt8} (keeps : later.Keeps tree written)
    (reads : tree.read path = .ok content) (spared : tree.destination path ∉ written) :
    later.read path = .ok content := by
  obtain ⟨place, locates, there⟩ := read_eq_ok.mp reads
  rw [← locate_eq_destination locates] at spared
  exact read_eq_ok.mpr ⟨place, keeps.locate locates, keeps.entries place _ there (.inr spared)⟩

/-! ## Putting things there -/

theorem entry?_put_of_ne (tree : FileTree) (entry : FileEntry) (differs : location ≠ place) :
    FileTree.entry? (tree.put place entry) location = tree.entry? location := by
  cases location with
  | nil => rfl
  | cons name rest => exact SortedMap.get?_insert_of_ne _ _ differs

theorem entry?_put_self (tree : FileTree) (entry : FileEntry) (below : place ≠ []) :
    FileTree.entry? (tree.put place entry) place = some entry := by
  cases place with
  | nil => exact absurd rfl below
  | cons name rest => exact SortedMap.get?_insert_self _ _ _

/-- What is put in the place of nothing or of a file leaves everything else. -/
theorem keeps_put {entry : FileEntry} (free : tree.entry? place ≠ some .directory) :
    (tree.put place entry).Keeps tree [place] where
  workingDirectory := rfl
  entries location old there spared := by
    have differs : location ≠ place := by
      rintro rfl
      rcases spared with rfl | absent
      · exact free there
      · exact absent List.mem_cons_self
    rw [entry?_put_of_ne tree entry differs]
    exact there

theorem keeps_makeDirectory (makes : tree.makeDirectory path = .ok later) :
    later.Keeps tree [] := by
  obtain ⟨place, -, made⟩ := bind_eq_ok.mp makes
  split at made
  · rename_i vacant
    cases made
    refine ⟨rfl, fun location entry there _ => ?_⟩
    have differs : location ≠ place := by
      rintro rfl
      rw [vacant] at there
      cases there
    exact (entry?_put_of_ne tree _ differs).trans there
  · cases made

/-! ## Writing a file -/

/-- A path that ends in a part that is not empty has nothing to trim. -/
theorem trimmedParts_eq {outer : List String} {name : String}
    (parts : Path.parts path = outer ++ [name]) (some_ : name ≠ "") :
    trimmedParts path = (outer ++ [name], false) := by
  unfold trimmedParts
  rw [parts]
  simp [some_]

/-- **All that writing a file does**: the file is put in the place that its path leads to, where
there was no directory. -/
theorem write_eq_ok {content : List UInt8} {outer : List String} {name : String}
    (writes : tree.write path content = .ok later) (parts : Path.parts path = outer ++ [name])
    (some_ : name ≠ "") :
    ∃ place, tree.locate path = .ok place ∧ tree.entry? place ≠ some .directory ∧
      later = tree.put place (.file content) := by
  unfold write at writes
  rw [trimmedParts_eq parts some_] at writes
  by_cases long : pathLimit ≤ path.utf8ByteSize
  · rw [if_pos long] at writes
    cases writes
  rw [if_neg long] at writes
  obtain ⟨directory, follows, writes⟩ := bind_eq_ok.mp writes
  obtain ⟨_, -, writes⟩ := bind_eq_ok.mp writes
  simp only [List.dropLast_concat, List.getLast?_concat, Option.getD_some] at follows writes
  split at writes
  · cases writes
  obtain ⟨place, enters, writes⟩ := bind_eq_ok.mp writes
  have locates : tree.locate path = .ok place := by
    unfold locate
    rw [if_neg long, parts]
    unfold follow
    rw [List.foldlM_append]
    refine bind_eq_ok.mpr ⟨directory, follows, ?_⟩
    exact bind_eq_ok.mpr ⟨place, enters, rfl⟩
  split at writes
  · cases writes
  · rename_i free
    cases writes
    exact ⟨place, locates, free, rfl⟩

variable {content : List UInt8} {outer : List String} {name : String}

/-- **A file that was written is read as it was written**, and nothing else has changed. -/
theorem read_of_write (writes : tree.write path content = .ok later)
    (parts : Path.parts path = outer ++ [name]) (some_ : name ≠ "") :
    later.read path = .ok content ∧ later.Keeps tree [tree.destination path] := by
  obtain ⟨place, locates, free, rfl⟩ := write_eq_ok writes parts some_
  have keeps : (tree.put place (.file content)).Keeps tree [place] := keeps_put free
  have below : place ≠ [] := by
    rintro rfl
    exact free rfl
  rw [← locate_eq_destination locates]
  exact ⟨read_eq_ok.mpr ⟨place, keeps.locate locates, entry?_put_self tree _ below⟩, keeps⟩

end FileTree

end ProgramModel
