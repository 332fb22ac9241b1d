/-
# ProgramModel.Proofs.TypeNames -- the spellings of a type's name are read as that name

A dotted name has up to three forms: the name itself, the name between `L` and `;` with
slashes for dots, and, if it has a dot at all, the same without the `;`.  With blanks
around it each form is a spelling of the name (`Spells`), and every spelling is read as the
name that it spells (`qualifiedName_of_spells`).

The rules look as though they got into each other's way where a name begins with `L`
itself.  They do not: a form with slashes has them because of a dot of the name, a dotted
form has none, and only the wrapped form ends in `;`.
-/
import ProgramModel.TypeName

namespace ProgramModel

set_option autoImplicit false

/-! ## Blanks around a text -/

namespace Text

/-- Blanks in front of a text that does not begin with one are dropped, and nothing else is. -/
theorem dropWhile_blanks {before text : List Char} (blank : ∀ c ∈ before, isBlank c = true)
    (solid : ∀ c, text.head? = some c → isBlank c = false) :
    (before ++ text).dropWhile isBlank = text := by
  rw [List.dropWhile_append_of_pos blank]
  cases text with
  | nil => rfl
  | cons first rest => exact List.dropWhile_cons_of_neg (by simp [solid first rfl])

/-- Trimming takes away just the blanks around a text that has none itself. -/
theorem trimChars_blanks {before text after : List Char} (nonempty : text ≠ [])
    (front : ∀ c ∈ before, isBlank c = true) (solid : ∀ c ∈ text, isBlank c = false)
    (back : ∀ c ∈ after, isBlank c = true) : trimChars (before ++ text ++ after) = text := by
  obtain ⟨first, rest, rfl⟩ := List.exists_cons_of_ne_nil nonempty
  have opened : (before ++ (first :: rest ++ after)).dropWhile isBlank = first :: rest ++ after := by
    refine dropWhile_blanks front fun c head => ?_
    obtain rfl : first = c := Option.some.inj head
    exact solid first List.mem_cons_self
  have closed : (after.reverse ++ (first :: rest).reverse).dropWhile isBlank =
      (first :: rest).reverse := by
    refine dropWhile_blanks (fun c there => back c (List.mem_reverse.mp there)) fun c head => ?_
    exact solid c (List.mem_reverse.mp (List.mem_of_head? head))
  rw [List.append_assoc, trimChars, opened, List.reverse_append, closed, List.reverse_reverse]

end Text

namespace TypeName

/-! ## Forms and spellings -/

/-- Dots written as slashes. -/
def slashed (name : List Char) : List Char :=
  name.map fun c => if c = '.' then '/' else c

/-- A name that is not empty and has neither slashes nor semicolons nor blanks in it. -/
structure IsDotted (name : String) : Prop where
  nonempty : name.toList ≠ []
  noSlash : '/' ∉ name.toList
  noSemicolon : ';' ∉ name.toList
  noBlank : ∀ c ∈ name.toList, Text.isBlank c = false

instance (name : String) : Decidable (IsDotted name) :=
  decidable_of_iff
    (name.toList ≠ [] ∧ '/' ∉ name.toList ∧ ';' ∉ name.toList ∧
      name.toList.all (fun c => !Text.isBlank c) = true)
    ⟨fun ⟨nonempty, noSlash, noSemicolon, noBlank⟩ =>
        ⟨nonempty, noSlash, noSemicolon, by simpa using noBlank⟩,
      fun dotted =>
        ⟨dotted.nonempty, dotted.noSlash, dotted.noSemicolon, by simpa using dotted.noBlank⟩⟩

/-- The forms of a dotted name. -/
inductive Form (name : List Char) : List Char → Prop
  | dotted : Form name name
  | wrapped : Form name ('L' :: slashed name ++ [';'])
  | internal (qualified : '.' ∈ name) : Form name ('L' :: slashed name)

theorem form_iff {name form : List Char} : Form name form ↔
    form = name ∨ form = 'L' :: slashed name ++ [';'] ∨ '.' ∈ name ∧ form = 'L' :: slashed name := by
  constructor
  · intro isForm
    cases isForm with
    | dotted => exact .inl rfl
    | wrapped => exact .inr (.inl rfl)
    | internal qualified => exact .inr (.inr ⟨qualified, rfl⟩)
  · rintro (rfl | rfl | ⟨qualified, rfl⟩)
    · exact .dotted
    · exact .wrapped
    · exact .internal qualified

instance (name form : List Char) : Decidable (Form name form) := decidable_of_iff _ form_iff.symm

/-- The spelling is a form of the name with blanks around it, or with none. -/
def Spells (name spelling : String) : Prop :=
  ∃ before form after, Form name.toList form ∧ (∀ c ∈ before, Text.isBlank c = true) ∧
    (∀ c ∈ after, Text.isBlank c = true) ∧ spelling.toList = before ++ form ++ after

/-- A form and the blanks around it make a spelling. -/
theorem spells_of_parts {name spelling : String} (before form after : List Char)
    (parts : Form name.toList form ∧ (before ++ after).all Text.isBlank = true ∧
      spelling.toList = before ++ form ++ after) : Spells name spelling := by
  obtain ⟨isForm, blank, same⟩ := parts
  rw [List.all_append, Bool.and_eq_true, List.all_eq_true, List.all_eq_true] at blank
  exact ⟨before, form, after, isForm, blank.1, blank.2, same⟩

/-! ## Reading them -/

theorem dotted_slashed {name : List Char} (slashless : '/' ∉ name) :
    dotted (slashed name) = name := by
  unfold dotted slashed
  rw [List.map_map]
  calc name.map _ = name.map id := List.map_congr_left fun c there => ?_
    _ = name := List.map_id name
  have differs : c ≠ '/' := fun same => slashless (same ▸ there)
  by_cases dot : c = '.'
  · simp [dot]
  · simp [dot, differs]

/-- Slashes bring no character that is not in the name, but for the slash. -/
theorem mem_slashed {name : List Char} {c : Char} (there : c ∈ slashed name) :
    c = '/' ∨ c ∈ name := by
  obtain ⟨d, listed, same⟩ := List.mem_map.mp there
  split at same
  · exact .inl same.symm
  · exact .inr (same ▸ listed)

/-- What does not end in a semicolon is not wrapped. -/
theorem unwrap?_of_not_mem {name : List Char} (noSemicolon : ';' ∉ name) : unwrap? name = none := by
  unfold unwrap?
  split
  · rename_i rest
    refine if_neg fun ends => noSemicolon ?_
    exact List.mem_cons_of_mem _ (List.mem_of_getLast? ends.1)
  · rfl

theorem unwrap?_wrapped {inner : List Char} (nonempty : inner ≠ []) :
    unwrap? ('L' :: inner ++ [';']) = some inner := by
  simp [unwrap?, nonempty]

variable {name : String}

/-- **Every form of a dotted name is read as the name.** -/
theorem normalize_form (dotted : IsDotted name) {form : List Char} (isForm : Form name.toList form) :
    normalize form = name.toList := by
  have readBack := dotted_slashed dotted.noSlash
  unfold normalize
  cases isForm with
  | dotted => rw [unwrap?_of_not_mem dotted.noSemicolon, if_neg dotted.noSlash]
  | wrapped =>
      have inside : slashed name.toList ≠ [] := by
        simpa [slashed] using dotted.nonempty
      rw [unwrap?_wrapped inside]
      exact readBack
  | internal qualified =>
      have noSemicolon : ';' ∉ 'L' :: slashed name.toList := by
        intro there
        rcases List.mem_cons.mp there with clash | inside
        · cases clash
        · rcases mem_slashed inside with clash | there
          · cases clash
          · exact dotted.noSemicolon there
      have slash : '/' ∈ 'L' :: slashed name.toList :=
        List.mem_cons_of_mem _ (List.mem_map.mpr ⟨'.', qualified, rfl⟩)
      rw [unwrap?_of_not_mem noSemicolon, if_pos slash]
      exact readBack

theorem solid_form (dotted : IsDotted name) {form : List Char} (isForm : Form name.toList form) :
    form ≠ [] ∧ ∀ c ∈ form, Text.isBlank c = false := by
  have inside (c : Char) (there : c ∈ slashed name.toList) : Text.isBlank c = false := by
    rcases mem_slashed there with rfl | there
    · rfl
    · exact dotted.noBlank c there
  cases isForm with
  | dotted => exact ⟨dotted.nonempty, dotted.noBlank⟩
  | wrapped =>
      refine ⟨by simp, ?_⟩
      simp only [List.cons_append, List.mem_cons, List.mem_append, List.not_mem_nil, or_false]
      rintro c (rfl | there | rfl)
      · rfl
      · exact inside c there
      · rfl
  | internal =>
      refine ⟨by simp, ?_⟩
      simp only [List.mem_cons]
      rintro c (rfl | there)
      · rfl
      · exact inside c there

end TypeName

/-- **Every spelling of a dotted name is read as that name.** -/
theorem qualifiedName_of_spells {name spelling : String} (dotted : TypeName.IsDotted name)
    (spells : TypeName.Spells name spelling) : qualifiedName spelling = name := by
  obtain ⟨before, form, after, isForm, front, back, same⟩ := spells
  obtain ⟨nonempty, solid⟩ := TypeName.solid_form dotted isForm
  unfold qualifiedName
  rw [same, Text.trimChars_blanks nonempty front solid back, TypeName.normalize_form dotted isForm,
    String.ofList_toList]

end ProgramModel
