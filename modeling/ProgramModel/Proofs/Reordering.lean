/-
# ProgramModel.Proofs.Reordering -- documents do not depend on order and repetition

`Schema.Rearranged` relates two trees that differ, at any depth, only in where and how often items
stand in sequences, and in the order of members (and in members nobody knows): items may be permuted
and repeated (`Schema.rearranged_array`), members permuted (`Schema.rearranged_of_perm`), and each of
them rearranged itself (`Schema.rearranged_ofMembers`).  What a rearranged tree holds is `Alike`:
sequences with the same items, up to the same (`Schema.Holds.rearranged`).  A format that `Respects`
this gives alike values one meaning.  Formats are put together from others, and respect it with
them; the one place where it takes more than that is a set, which is its members (`respects_set`).
So alike documents mean the same from the inside out, whatever the order of the records around.

With the texts that spell the trees, this says that a text may be rearranged: it is accepted as
well, is read as the same document, and is written back as the same text (`ofJson_rearranged`).
-/
import ProgramModel.Proofs.Bundles
import ProgramModel.Proofs.Grammar
import ProgramModel.Proofs.Rearrangement
import ProgramModel.Proofs.Segments

namespace ProgramModel

set_option autoImplicit false

open Json (Tree)

/-! ## Rearranged trees -/

/-- Each item of either list has a counterpart in the other. -/
def Mutual {α β : Type} (relation : α → β → Prop) (items : List α) (others : List β) : Prop :=
  (∀ one ∈ items, ∃ other ∈ others, relation one other) ∧
    ∀ other ∈ others, ∃ one ∈ items, relation one other

mutual

/-- The items of sequences in other places and numbers, and members in other places. -/
def Schema.Rearranged : Schema → Tree → Tree → Prop
  | .optional inner, tree, other =>
      tree = other ∨ (tree ≠ .null ∧ other ≠ .null ∧ inner.Rearranged tree other)
  | .sequence item, tree, other =>
      tree = other ∨ ∃ items others, tree = .array items ∧ other = .array others ∧
        Mutual item.Rearranged items others
  | .record _ fields, tree, other =>
      tree = other ∨
      (∃ members moved others, tree = .ofMembers members ∧ other = .ofMembers others ∧
        moved.Perm others ∧ List.Forall₂ (fun member other => member.1 = other.1 ∧
          fields.RearrangedUnder member.1 member.2 other.2) members moved) ∨
      ∃ items others, tree = .array items ∧ other = .array others ∧
        fields.RearrangedItems items others
  | _, tree, other => tree = other

/-- Under the key of a field a rearranged value, and under any other key whatever it may be. -/
def Fields.RearrangedUnder : Fields → String → Tree → Tree → Prop
  | .nil, _, _, _ => True
  | .cons key schema _ rest, found, tree, other =>
      if found = key then schema.Rearranged tree other else rest.RearrangedUnder found tree other

/-- Each field in its place, rearranged. -/
def Fields.RearrangedItems : Fields → List Tree → List Tree → Prop
  | .cons _ schema _ rest, item :: items, other :: others =>
      schema.Rearranged item other ∧ rest.RearrangedItems items others
  | _, items, others => items = others

end

/-- The same key, and under it a value that may be rearranged. -/
def Fields.RearrangedMember (fields : Fields) (member other : String × Tree) : Prop :=
  member.1 = other.1 ∧ fields.RearrangedUnder member.1 member.2 other.2

theorem Schema.rearranged_refl (schema : Schema) (tree : Tree) : schema.Rearranged tree tree := by
  cases schema with
  | text => rfl
  | flag => rfl
  | label names => rfl
  | table => rfl
  | optional inner => exact .inl rfl
  | sequence item => exact .inl rfl
  | record name fields => exact .inl rfl

theorem Fields.rearrangedUnder_refl : (fields : Fields) → (key : String) → (tree : Tree) →
    fields.RearrangedUnder key tree tree
  | .nil, _, _ => trivial
  | .cons key schema _ rest, found, tree => by
      rw [RearrangedUnder]
      split
      · exact schema.rearranged_refl tree
      · exact rest.rearrangedUnder_refl found tree

/-- Items may be permuted and repeated. -/
theorem Schema.rearranged_array (item : Schema) {items others : List Tree}
    (same : ∀ tree, tree ∈ items ↔ tree ∈ others) :
    (Schema.sequence item).Rearranged (.array items) (.array others) :=
  .inr ⟨items, others, rfl, rfl,
    fun one there => ⟨one, (same one).mp there, item.rearranged_refl one⟩,
    fun other there => ⟨other, (same other).mpr there, item.rearranged_refl other⟩⟩

/-- Members may be rearranged and permuted. -/
theorem Schema.rearranged_ofMembers (name : String) {fields : Fields}
    {members moved others : List (String × Tree)}
    (perm : moved.Perm others) (each : List.Forall₂ fields.RearrangedMember members moved) :
    (Schema.record name fields).Rearranged (.ofMembers members) (.ofMembers others) :=
  .inr (.inl ⟨members, moved, others, rfl, rfl, perm, each⟩)

/-- A text whose objects have the members in another order is rearranged. -/
theorem Schema.rearranged_of_perm (name : String) (fields : Fields)
    {members others : List (String × Tree)} (perm : members.Perm others) :
    (Schema.record name fields).Rearranged (.ofMembers members) (.ofMembers others) :=
  Schema.rearranged_ofMembers name perm (List.forall₂_same.mpr fun member _ =>
    ⟨rfl, fields.rearrangedUnder_refl member.1 member.2⟩)

/-! ## Alike values -/

mutual

/-- The same, up to how often and in which order items are listed in sequences. -/
def Schema.Alike : (schema : Schema) → schema.Value → schema.Value → Prop
  | .optional inner, value, other => Option.Rel inner.Alike value other
  | .sequence item, values, others => Mutual item.Alike values others
  | .record _ fields, values, others => fields.Alike values others
  | .text, value, other => value = other
  | .flag, value, other => value = other
  | .label _, value, other => value = other
  | .table, value, other => value = other

def Fields.Alike : (fields : Fields) → fields.Value → fields.Value → Prop
  | .nil, _, _ => True
  | .cons _ schema _ rest, (value, values), (other, others) =>
      schema.Alike value other ∧ rest.Alike values others

end

mutual

theorem Schema.alike_refl : (schema : Schema) → (value : schema.Value) → schema.Alike value value
  | .text, _ => rfl
  | .flag, _ => rfl
  | .label _, _ => rfl
  | .table, _ => rfl
  | .optional _, none => .none
  | .optional inner, some value => .some (inner.alike_refl value)
  | .sequence item, values => by
      constructor
      · exact fun one there => ⟨one, there, item.alike_refl one⟩
      · exact fun one there => ⟨one, there, item.alike_refl one⟩
  | .record _ fields, values => fields.alike_refl values

theorem Fields.alike_refl : (fields : Fields) → (values : fields.Value) →
    fields.Alike values values
  | .nil, _ => trivial
  | .cons _ schema _ rest, (value, values) => ⟨schema.alike_refl value, rest.alike_refl values⟩

end

/-! ## What rearranged trees hold -/

section Sequences

variable {α β γ : Type} {holds : α → β → Prop} {rearranged : α → α → Prop} {alike : β → β → Prop}

theorem exists_forall₂ {related : α → γ → Prop} {items : List α}
    (each : ∀ item ∈ items, ∃ value, related item value) :
    ∃ values, List.Forall₂ related items values := by
  induction items with
  | nil => exact ⟨[], .nil⟩
  | cons item items ih =>
      obtain ⟨value, here⟩ := each item List.mem_cons_self
      obtain ⟨values, others⟩ := ih fun other there => each other (List.mem_cons_of_mem _ there)
      exact ⟨value :: values, .cons here others⟩

/-- **Items that have counterparts hold values that have counterparts**, if each holds one value. -/
theorem exists_alike_of_mutual
    (unique : ∀ item value other, holds item value → holds item other → value = other)
    (carries : ∀ one other value, holds one value → rearranged one other →
      ∃ found, holds other found ∧ alike value found)
    {items others : List α} {values : List β} (each : List.Forall₂ holds items values)
    (counterparts : Mutual rearranged items others) :
    ∃ found, List.Forall₂ holds others found ∧ Mutual alike values found := by
  obtain ⟨forth, back⟩ := counterparts
  have carried : ∀ other ∈ others, ∃ found, holds other found ∧ ∃ value ∈ values,
      alike value found := by
    intro other there
    obtain ⟨one, listed, moved⟩ := back other there
    obtain ⟨value, held, one_⟩ := Rearranged.exists_of_forall₂ each listed
    obtain ⟨found, holds_, same⟩ := carries one other value one_ moved
    exact ⟨found, holds_, value, held, same⟩
  obtain ⟨found, all⟩ := exists_forall₂ carried
  refine ⟨found, all.imp fun _ _ both => both.1, fun value there => ?_, fun other there => ?_⟩
  · obtain ⟨one, listed, held⟩ := Rearranged.exists_of_forall₂ each.flip there
    obtain ⟨other, met, moved⟩ := forth one listed
    obtain ⟨image, holds_, same⟩ := carries one other value held moved
    obtain ⟨chosen, kept, also, -⟩ := Rearranged.exists_of_forall₂ all met
    exact ⟨chosen, kept, unique other image chosen holds_ also ▸ same⟩
  · obtain ⟨one, -, -, value, held, same⟩ := Rearranged.exists_of_forall₂ all.flip there
    exact ⟨value, held, same⟩

end Sequences

section Members

variable {key : String} {schema : Schema} {presence : Presence} {rest : Fields}
  {members others : List (String × Tree)}

/-- Members that are rearranged have rearranged values under the key of a field, -/
theorem forall₂_valuesUnder
    (each : List.Forall₂ (Fields.cons key schema presence rest).RearrangedMember members others) :
    List.Forall₂ schema.Rearranged (valuesUnder key members) (valuesUnder key others) := by
  induction each with
  | nil => exact .nil
  | @cons member other members others one _ ih =>
      obtain ⟨same, under⟩ := one
      by_cases own : member.1 = key
      · rw [Fields.RearrangedUnder, if_pos own] at under
        rw [valuesUnder_cons_of_eq own, valuesUnder_cons_of_eq (same ▸ own)]
        exact .cons under ih
      · rw [valuesUnder_cons_of_ne own, valuesUnder_cons_of_ne (same ▸ own)]
        exact ih

/-- and rearranged members under the keys of the others. -/
theorem forall₂_without
    (each : List.Forall₂ (Fields.cons key schema presence rest).RearrangedMember members others) :
    List.Forall₂ rest.RearrangedMember (without key members) (without key others) := by
  induction each with
  | nil => exact .nil
  | @cons member other members others one _ ih =>
      obtain ⟨same, under⟩ := one
      by_cases own : member.1 = key
      · rw [without_cons_of_eq own, without_cons_of_eq (same ▸ own)]
        exact ih
      · rw [Fields.RearrangedUnder, if_neg own] at under
        rw [without_cons_of_ne own, without_cons_of_ne (same ▸ own)]
        exact .cons ⟨same, under⟩ ih

/-- What is under a key once is under it once in any order. -/
theorem exists_valuesUnder_of_perm {moved : List (String × Tree)} {tree : Tree}
    (each : List.Forall₂ (Fields.cons key schema presence rest).RearrangedMember members moved)
    (perm : moved.Perm others) (only : valuesUnder key members = [tree]) :
    ∃ other, valuesUnder key others = [other] ∧ schema.Rearranged tree other := by
  have values := forall₂_valuesUnder each
  have same : (valuesUnder key moved).Perm (valuesUnder key others) :=
    (perm.filter _).map Prod.snd
  rw [only] at values
  obtain ⟨other, none_, rearranged, ends, shape⟩ := List.forall₂_cons_left_iff.mp values
  obtain rfl := List.forall₂_nil_left_iff.mp ends
  rw [shape] at same
  exact ⟨other, List.singleton_perm.mp same |>.symm, rearranged⟩

theorem valuesUnder_of_perm_of_nil {moved : List (String × Tree)}
    (each : List.Forall₂ (Fields.cons key schema presence rest).RearrangedMember members moved)
    (perm : moved.Perm others) (empty : valuesUnder key members = []) :
    valuesUnder key others = [] := by
  have values := forall₂_valuesUnder each
  have same : (valuesUnder key moved).Perm (valuesUnder key others) :=
    (perm.filter _).map Prod.snd
  rw [empty] at values
  rw [List.forall₂_nil_left_iff.mp values] at same
  exact List.nil_perm.mp same

end Members

mutual

/-- **What a tree holds is alike in a rearranged tree.** -/
theorem Schema.Holds.rearranged : (schema : Schema) → (tree other : Tree) →
    (value : schema.Value) → (held : schema.Holds tree value) →
    (moved : schema.Rearranged tree other) →
    ∃ found, schema.Holds other found ∧ schema.Alike value found
  | .text, _, _, value, held, rfl => ⟨value, held, rfl⟩
  | .flag, _, _, value, held, rfl => ⟨value, held, rfl⟩
  | .label _, _, _, value, held, rfl => ⟨value, held, rfl⟩
  | .table, _, _, value, held, rfl => ⟨value, held, rfl⟩
  | .optional inner, _, _, value, held, .inl rfl => ⟨value, held, Schema.alike_refl _ value⟩
  | .optional inner, tree, other, none, held, .inr ⟨present, _⟩ => absurd held present
  | .optional inner, tree, other, some value, ⟨_, held⟩, .inr ⟨_, present, moved⟩ => by
      obtain ⟨found, holds, alike⟩ := Schema.Holds.rearranged inner tree other value held moved
      exact ⟨some found, ⟨present, holds⟩, .some alike⟩
  | .sequence item, _, _, values, held, .inl rfl => ⟨values, held, Schema.alike_refl _ values⟩
  | .sequence item, _, _, values, ⟨_, rfl, each⟩,
      .inr ⟨items, others, same, rfl, counterparts⟩ => by
      cases same
      have unique (tree : Tree) (value other : item.Value) (held : item.Holds tree value)
          (also : item.Holds tree other) : value = other := held.unique also
      obtain ⟨found, all, alike⟩ := exists_alike_of_mutual unique
        (Schema.Holds.rearranged item) each counterparts
      exact ⟨found, ⟨others, rfl, all⟩, alike⟩
  | .record name fields, _, _, values, held, .inl rfl => ⟨values, held, Schema.alike_refl _ values⟩
  | .record name fields, _, _, values, .inl ⟨members, rfl, held⟩,
      .inr (.inl ⟨_, moved, others, same, rfl, perm, each⟩) => by
      obtain rfl := Tree.ofMembers_injective same
      obtain ⟨found, holds, alike⟩ :=
        Fields.HoldsMembers.rearranged fields members moved others values held each perm
      exact ⟨found, .inl ⟨others, rfl, holds⟩, alike⟩
  | .record name fields, _, _, values, .inr ⟨items, rfl, held⟩,
      .inr (.inr ⟨_, others, same, rfl, each⟩) => by
      cases same
      obtain ⟨found, holds, alike⟩ :=
        Fields.HoldsItems.rearranged fields items others values held each
      exact ⟨found, .inr ⟨others, rfl, holds⟩, alike⟩
  | .record name fields, _, _, values, .inl ⟨members, rfl, held⟩,
      .inr (.inr ⟨_, _, same, _⟩) => nomatch same
  | .record name fields, _, _, values, .inr ⟨items, rfl, held⟩,
      .inr (.inl ⟨_, _, _, same, _⟩) => nomatch same

theorem Fields.HoldsMembers.rearranged : (fields : Fields) →
    (members moved others : List (String × Tree)) → (values : fields.Value) →
    (held : fields.HoldsMembers members values) →
    (each : List.Forall₂ fields.RearrangedMember members moved) → (perm : moved.Perm others) →
    ∃ found, fields.HoldsMembers others found ∧ fields.Alike values found
  | .nil, _, _, _, values, _, _, _ => ⟨values, trivial, trivial⟩
  | .cons key schema presence rest, members, moved, others, (value, values), ⟨own, held⟩, each,
      perm => by
      obtain ⟨found, holds, alike⟩ := Fields.HoldsMembers.rearranged rest (without key members)
        (without key moved) (without key others) values held (forall₂_without each)
        (perm.filter _)
      match trees : valuesUnder key members, own with
      | [], absent =>
          have none_ := valuesUnder_of_perm_of_nil each perm trees
          refine ⟨(value, found), ⟨?_, holds⟩, schema.alike_refl value, alike⟩
          rw [none_]
          exact absent
      | [tree], own =>
          obtain ⟨other, one, moved⟩ := exists_valuesUnder_of_perm each perm trees
          obtain ⟨first, firsts, same⟩ := Schema.Holds.rearranged schema tree other value own moved
          refine ⟨(first, found), ⟨?_, holds⟩, same, alike⟩
          rw [one]
          exact firsts

theorem Fields.HoldsItems.rearranged : (fields : Fields) → (items others : List Tree) →
    (values : fields.Value) → (held : fields.HoldsItems items values) →
    (moved : fields.RearrangedItems items others) →
    ∃ found, fields.HoldsItems others found ∧ fields.Alike values found
  | .nil, _, _, values, held, moved => ⟨values, moved ▸ held, trivial⟩
  | .cons key schema presence rest, [], others, values, held, moved => by
      obtain rfl : [] = others := by cases others <;> exact moved
      exact ⟨values, held, Fields.alike_refl _ values⟩
  | .cons key schema presence rest, tree :: items, [], _, _, moved => nomatch moved
  | .cons key schema presence rest, tree :: items, other :: others, (value, values), ⟨own, held⟩,
      ⟨one, moved⟩ => by
      obtain ⟨first, firsts, same⟩ := Schema.Holds.rearranged schema tree other value own one
      obtain ⟨found, holds, alike⟩ :=
        Fields.HoldsItems.rearranged rest items others values held moved
      exact ⟨(first, found), ⟨firsts, holds⟩, same, alike⟩

end

/-! ## What alike values mean -/

namespace Format

variable {α : Type} {format : Format α}

/-- Alike values mean the same. -/
def Respects (format : Format α) : Prop :=
  ∀ value other, format.schema.Alike value other → format.meaning value = format.meaning other

theorem respects_text : text.Respects := by
  intro value other same
  exact same

theorem respects_optional (respects : format.Respects) : (optional format).Respects := by
  intro value other alike
  cases alike with
  | none => rfl
  | some alike => exact congrArg some (respects _ _ alike)

/-- **A set is its members**, so it respects order and repetition if they do. -/
theorem respects_set [Ord α] [Std.TransOrd α] [Std.LawfulEqOrd α] (respects : format.Respects) :
    (set format).Respects := by
  rintro (values : List format.schema.Value) (others : List format.schema.Value) ⟨forth, back⟩
  show SortedSet.ofList ((list format).meaning values) =
    SortedSet.ofList ((list format).meaning others)
  rw [meaning_list, meaning_list]
  refine SortedSet.ext fun member => ?_
  rw [SortedSet.mem_ofList, SortedSet.mem_ofList, List.mem_map, List.mem_map]
  constructor
  · rintro ⟨value, there, rfl⟩
    obtain ⟨other, listed, alike⟩ := forth value there
    exact ⟨other, listed, (respects value other alike).symm⟩
  · rintro ⟨other, there, rfl⟩
    obtain ⟨value, listed, alike⟩ := back other there
    exact ⟨value, listed, respects value other alike⟩

/-! ### The parts of documents -/

theorem respects_artifact : artifact.Respects := by
  rintro ⟨group, name, version, _⟩ ⟨_, _, _, _⟩ ⟨rfl, rfl, rfl, -⟩
  rfl

theorem respects_method : method.Respects := by
  rintro ⟨owner, symbol, artifact, _⟩ ⟨_, _, _, _⟩ ⟨rfl, rfl, artifacts, -⟩
  show MethodIdentity.mk owner symbol ((optional text).meaning artifact) = _
  rw [respects_optional respects_text _ _ artifacts]
  rfl

theorem respects_expectedEntry : expectedEntry.Respects := by
  rintro ⟨source, target, _⟩ ⟨_, _, _⟩ ⟨sources, targets, -⟩
  show ExpectedEntry.mk (method.meaning source) (method.meaning target) = _
  rw [respects_method _ _ sources, respects_method _ _ targets]
  rfl

theorem respects_callEntry : callEntry.Respects := by
  rintro ⟨source, target, place, _⟩ ⟨_, _, _, _⟩ ⟨sources, targets, rfl, -⟩
  show CallEntry.mk (method.meaning source) (method.meaning target) (callType.meaning place) = _
  rw [respects_method _ _ sources, respects_method _ _ targets]
  rfl

theorem respects_classEntry : classEntry.Respects := by
  rintro ⟨artifact, name, superclass, interfaces, methods, expected, isPublic, isPrivate,
    isInterface, isAbstract, _⟩ ⟨_, _, _, _, _, _, _, _, _, _, _⟩
    ⟨artifacts, rfl, superclasses, implemented, declared, calls, rfl, rfl, rfl, rfl, -⟩
  show ClassEntry.mk ((optional text).meaning artifact) name ((optional text).meaning superclass)
    ((set text).meaning interfaces) ((set text).meaning methods)
    ((set expectedEntry).meaning expected) isPublic isPrivate isInterface isAbstract = _
  rw [respects_optional respects_text _ _ artifacts,
    respects_optional respects_text _ _ superclasses, respects_set respects_text _ _ implemented,
    respects_set respects_text _ _ declared, respects_set respects_expectedEntry _ _ calls]
  rfl

/-- **A document respects order and repetition**, at any depth. -/
theorem respects_document : document.Respects := by
  rintro ⟨artifacts, classes, resolved, unresolved, _⟩ ⟨_, _, _, _, _⟩
    ⟨listed, records, resolvedCalls, unresolvedCalls, -⟩
  show Document.mk ((set artifact).meaning artifacts) ((set classEntry).meaning classes)
    ((set callEntry).meaning resolved) ((set callEntry).meaning unresolved) = _
  rw [respects_set respects_artifact _ _ listed, respects_set respects_classEntry _ _ records,
    respects_set respects_callEntry _ _ resolvedCalls,
    respects_set respects_callEntry _ _ unresolvedCalls]
  rfl

end Format

/-! ## Documents -/

namespace Document

/-- A text is read as a document if it spells a tree that holds one. -/
theorem ofJson_eq_ok_iff {text : List Text.Glyph} {document : Document} :
    Document.ofJson text = .ok document ↔
      ∃ tree : Tree, tree.Spells text ∧
        ∃ value, Format.document.schema.Holds tree value ∧
          Format.document.meaning value = document := by
  constructor
  · intro reads
    cases read : Format.document.schema.ofJson text with
    | error fault =>
        rw [Document.ofJson, Format.ofJson, read] at reads
        cases reads
    | ok value =>
        obtain ⟨tree, cut, held⟩ := Schema.ofJson_eq_ok_iff.mp read
        rw [Document.ofJson, Format.ofJson, read] at reads
        exact ⟨tree, Tree.spells_iff.mpr cut, value, held, Except.ok.inj reads⟩
  · rintro ⟨tree, spells, value, held, rfl⟩
    have read := Schema.ofJson_eq_ok_iff.mpr ⟨tree, Tree.spells_iff.mp spells, held⟩
    rw [Document.ofJson, Format.ofJson, read]
    rfl

/-- **A document ignores order and repetition.**  Every text that is accepted spells one tree, and
every text that spells the tree rearranged, at whatever depth, is accepted as well: it is read as
the same document, and written back as the same text in each layout, to any sink. -/
theorem ofJson_rearranged {text : List Text.Glyph} {document : Document}
    (accepted : Document.ofJson text = .ok document) :
    ∃ tree : Tree, tree.Spells text ∧ (∀ also : Tree, also.Spells text → also = tree) ∧
      ∀ (moved : Tree) (other : List Text.Glyph), moved.Spells other →
        Format.document.schema.Rearranged tree moved →
        ∃ again, Document.ofJson other = .ok again ∧ again = document ∧
          ∀ layout, again.chars layout = document.chars layout ∧
            ∀ sink, again.write layout sink = document.write layout sink := by
  obtain ⟨tree, spells, value, held, rfl⟩ := ofJson_eq_ok_iff.mp accepted
  refine ⟨tree, spells, fun also spelled => spelled.unique spells,
    fun moved other spelled rearranged => ?_⟩
  obtain ⟨found, holds, alike⟩ := Schema.Holds.rearranged _ tree moved value held rearranged
  have same : Format.document.meaning found = Format.document.meaning value :=
    (Format.respects_document value found alike).symm
  refine ⟨_, ofJson_eq_ok_iff.mpr ⟨moved, spelled, found, holds, rfl⟩, same, fun layout => ?_⟩
  rw [same]
  exact ⟨rfl, fun sink => rfl⟩

/-- Two classes, one of them with methods. -/
def classesAsListed : Json :=
  .object [
    ("classRecords", .array [
      .object [("name", .text "A"), ("methods", .array [.text "f", .text "g"])],
      .object [("name", .text "B")]]),
    ("artifacts", .array [])]

/-- The same with the sets, the classes, the fields of a class and its methods in other orders, and
with a class and a method repeated. -/
def classesRearranged : Json :=
  .object [
    ("artifacts", .array []),
    ("classRecords", .array [
      .object [("name", .text "B")],
      .object [("methods", .array [.text "g", .text "f", .text "g"]), ("name", .text "A")],
      .object [("name", .text "B")]])]

theorem ofJson_classesRearranged :
    ∃ document again,
      Document.ofJson ((classesAsListed.chars .compact).map .char) = .ok document ∧
      Document.ofJson ((classesRearranged.chars .indented).map .char) = .ok again ∧
      again = document ∧ ∀ layout, again.chars layout = document.chars layout := by
  let f : Tree := .text (.ok "f")
  let g : Tree := .text (.ok "g")
  let one : Tree := .ofMembers [("name", .text (.ok "A")), ("methods", .array [f, g])]
  let moved : Tree := .ofMembers [("methods", .array [g, f, g]), ("name", .text (.ok "A"))]
  let other : Tree := .ofMembers [("name", .text (.ok "B"))]
  let listed : Tree := .ofMembers [("classRecords", .array [one, other]), ("artifacts", .array [])]
  let rearranged : Tree :=
    .ofMembers [("artifacts", .array []), ("classRecords", .array [other, moved, other])]
  have methods : (Format.set Format.text).schema.Rearranged (.array [f, g]) (.array [g, f, g]) :=
    Schema.rearranged_array _ (by simp [or_comm])
  have record : Format.classEntry.schema.Rearranged one moved :=
    Schema.rearranged_ofMembers _ (.swap _ _ _)
      (.cons ⟨rfl, Fields.rearrangedUnder_refl _ _ _⟩ (.cons ⟨rfl, methods⟩ .nil))
  have records : (Format.set Format.classEntry).schema.Rearranged
      (.array [one, other]) (.array [other, moved, other]) := by
    have same := Format.classEntry.schema.rearranged_refl other
    exact .inr ⟨_, _, rfl, rfl, by simp [record, same], by simp [record, same]⟩
  have whole : Format.document.schema.Rearranged listed rearranged :=
    Schema.rearranged_ofMembers _ (.swap _ _ _)
      (.cons ⟨rfl, records⟩ (.cons ⟨rfl, Fields.rearrangedUnder_refl _ _ _⟩ .nil))
  have cut : Json.tokens ((classesAsListed.chars .compact).map .char) = listed.tokens :=
    Json.tokens_chars .compact (by repeat constructor)
  have again : Json.tokens ((classesRearranged.chars .indented).map .char) = rearranged.tokens :=
    Json.tokens_chars .indented (by repeat constructor)
  obtain ⟨document, accepted⟩ : ∃ document,
      Document.ofJson ((classesAsListed.chars .compact).map .char) = .ok document := by
    rw [Document.ofJson, Format.ofJson, Schema.ofJson, cut]
    exact ⟨_, rfl⟩
  obtain ⟨tree, -, unique, reads⟩ := ofJson_rearranged accepted
  obtain rfl := unique listed (Tree.spells_iff.mpr cut)
  obtain ⟨found, read, same, written⟩ := reads rearranged _ (Tree.spells_iff.mpr again) whole
  exact ⟨document, found, accepted, read, same, fun layout => (written layout).1⟩

end Document

end ProgramModel
