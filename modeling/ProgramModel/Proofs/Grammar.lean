/-
# ProgramModel.Proofs.Grammar -- which texts a schema accepts, and what they hold

`Schema.Holds` says what a tree holds as a document of a schema, without a reader.  A record is
written as an object, where the order of the members does not matter, each key is there at most
once, and members nobody knows may hold anything; or as the array of its fields, of which the last
ones may be left out.

The reader agrees with it: what is read off the front of the tokens is what a tree there holds
(`Schema.read_eq_ok_iff`), so a tree holds one value at most.  `Fields.Takes` says what one member
does to the slots of a record, and what all do is put together field by field
(`Fields.takesAll_cons`).
-/
import ProgramModel.Proofs.Readers

namespace ProgramModel

set_option autoImplicit false

open Json (Token Fault Tree)

/-! ## What a tree holds -/

/-- What is under a key. -/
def valuesUnder (key : String) (members : List (String × Tree)) : List Tree :=
  (members.filter fun member => member.1 == key).map Prod.snd

/-- The members under other keys. -/
def without (key : String) (members : List (String × Tree)) : List (String × Tree) :=
  members.filter fun member => member.1 != key

section Keys

variable {key : String} {member : String × Tree} {members : List (String × Tree)}

theorem valuesUnder_cons_of_eq (own : member.1 = key) :
    valuesUnder key (member :: members) = member.2 :: valuesUnder key members := by
  simp [valuesUnder, own]

theorem valuesUnder_cons_of_ne (apart : member.1 ≠ key) :
    valuesUnder key (member :: members) = valuesUnder key members := by
  simp [valuesUnder, apart]

theorem without_cons_of_eq (own : member.1 = key) :
    without key (member :: members) = without key members := by
  simp [without, own]

theorem without_cons_of_ne (apart : member.1 ≠ key) :
    without key (member :: members) = member :: without key members := by
  simp [without, apart]

end Keys

mutual

/-- The tree holds the value as a part of a document of the schema. -/
def Schema.Holds : (schema : Schema) → Tree → schema.Value → Prop
  | .text, tree, value => tree = .text (.ok value)
  | .flag, tree, value => tree = .bool value
  | .label names, tree, place => ∃ label, Json.findLabel names label = .ok place ∧
      (tree = .text (.ok label) ∨ tree = .ofMembers [(label, .null)])
  | .optional inner, tree, value =>
      match value with
      | none => tree = .null
      | some value => tree ≠ .null ∧ inner.Holds tree value
  | .sequence item, tree, values => ∃ items, tree = .array items ∧
      List.Forall₂ item.Holds items values
  | .table, tree, entries =>
      tree = .ofMembers (List.map (fun entry => (entry.1, .text (.ok entry.2))) entries)
  | .record _ fields, tree, values =>
      (∃ members, tree = .ofMembers members ∧ fields.HoldsMembers members values) ∨
      ∃ items, tree = .array items ∧ fields.HoldsItems items values

/-- Under each key the members hold the value of the field, unless they leave it out. -/
def Fields.HoldsMembers : (fields : Fields) → List (String × Tree) → fields.Value → Prop
  | .nil, _, _ => True
  | .cons key schema presence rest, members, (value, values) =>
      (match valuesUnder key members with
        | [] => schema.absent? presence = some value
        | [tree] => schema.Holds tree value
        | _ :: _ :: _ => False) ∧
      rest.HoldsMembers (without key members) values

/-- The items hold the values of the fields, one by one, and leave out the others. -/
def Fields.HoldsItems : (fields : Fields) → List Tree → fields.Value → Prop
  | .nil, items, _ => items = []
  | .cons _ schema presence rest, items, (value, values) =>
      match items with
      | [] => schema.absent? presence = some value ∧ rest.HoldsItems [] values
      | tree :: others => schema.Holds tree value ∧ rest.HoldsItems others values

end

/-! ## Members and slots -/

/-- What the trees under its key do to the slot of a field. -/
def Schema.Fills (schema : Schema) (trees : List Tree) (slot last : Option schema.Value) : Prop :=
  match trees with
  | [] => last = slot
  | [tree] => slot = none ∧ ∃ value, last = some value ∧ schema.Holds tree value
  | _ :: _ :: _ => False

/-- What a member does to the slots of a record: it fills the empty slot of its field, if it is a
field of the record. -/
def Fields.Takes : (fields : Fields) → fields.Slots → String → Tree → fields.Slots → Prop
  | .nil, _, _, _, _ => True
  | .cons key schema _ rest, (slot, slots), found, tree, (next, others) =>
      if found = key then schema.Fills [tree] slot next ∧ others = slots
      else next = slot ∧ rest.Takes slots found tree others

/-- Trees fill a slot one by one. -/
theorem Schema.fills_cons {schema : Schema} {tree : Tree} {trees : List Tree}
    {slot last : Option schema.Value} :
    schema.Fills (tree :: trees) slot last ↔
      ∃ next, schema.Fills [tree] slot next ∧ schema.Fills trees next last := by
  cases trees with
  | nil =>
      constructor
      · intro filled
        exact ⟨last, filled, rfl⟩
      · rintro ⟨next, filled, rfl⟩
        exact filled
  | cons other trees =>
      constructor
      · exact False.elim
      · -- The slot is full after the first tree.
        rintro ⟨next, ⟨_, value, rfl, _⟩, filled⟩
        cases trees with
        | nil => exact nomatch filled.1
        | cons _ _ => exact filled

namespace Fields

variable {key : String} {schema : Schema} {presence : Presence} {rest : Fields}
  {members : List (String × Tree)}

/-- **The members of a record fill each slot by itself.** -/
theorem takesAll_cons {slot last : Option schema.Value} {slots lasts : rest.Slots} :
    Json.TakesAll (Fields.cons key schema presence rest).Takes (slot, slots) members (last, lasts) ↔
      schema.Fills (valuesUnder key members) slot last ∧
        Json.TakesAll rest.Takes slots (without key members) lasts := by
  induction members generalizing slot slots with
  | nil =>
      constructor
      · intro all
        cases all
        exact ⟨rfl, .nil _⟩
      · rintro ⟨same, all⟩
        cases all
        obtain rfl : last = slot := same
        exact .nil _
  | cons member members ih =>
      obtain ⟨found, tree⟩ := member
      refine Json.takesAll_cons_iff.trans ?_
      by_cases own : (found, tree).1 = key
      · rw [valuesUnder_cons_of_eq own, without_cons_of_eq own, Schema.fills_cons]
        constructor
        · rintro ⟨⟨next, nexts⟩, one, all⟩
          rw [Takes, if_pos own] at one
          obtain ⟨filled, rfl⟩ := one
          obtain ⟨others, further⟩ := ih.mp all
          exact ⟨⟨next, filled, others⟩, further⟩
        · rintro ⟨⟨next, filled, others⟩, further⟩
          refine ⟨(next, slots), ?_, ih.mpr ⟨others, further⟩⟩
          rw [Takes, if_pos own]
          exact ⟨filled, rfl⟩
      · rw [valuesUnder_cons_of_ne own, without_cons_of_ne own]
        constructor
        · rintro ⟨⟨next, nexts⟩, one, all⟩
          rw [Takes, if_neg own] at one
          obtain ⟨rfl, one⟩ := one
          obtain ⟨filled, further⟩ := ih.mp all
          exact ⟨filled, .cons one further⟩
        · rintro ⟨filled, others⟩
          obtain ⟨nexts, one, all⟩ := Json.takesAll_cons_iff.mp others
          refine ⟨(slot, nexts), ?_, ih.mpr ⟨filled, all⟩⟩
          rw [Takes, if_neg own]
          exact ⟨rfl, one⟩

theorem takesAll_nil (slots last : Fields.nil.Slots) :
    Json.TakesAll Fields.nil.Takes slots members last := by
  induction members generalizing slots with
  | nil => exact .nil _
  | cons member members ih => exact .cons trivial (ih slots)

/-- The slots of a record make up its values one by one. -/
theorem assemble_cons_iff {slot : Option schema.Value} {slots : rest.Slots} {value : schema.Value}
    {values : rest.Value} :
    (Fields.cons key schema presence rest).assemble (slot, slots) = .ok (value, values) ↔
      (slot = some value ∨ slot = none ∧ schema.absent? presence = some value) ∧
        rest.assemble slots = .ok values := by
  -- Once the first value is there, the others decide.
  have pair (first : schema.Value) : (rest.assemble slots).map (first, ·) = .ok (value, values) ↔
      first = value ∧ rest.assemble slots = .ok values := by
    cases rest.assemble slots <;> simp [Except.map]
  cases slot with
  | some first =>
      refine (pair first).trans (and_congr_left fun _ => ?_)
      simp
  | none =>
      cases absent : schema.absent? presence with
      | some first =>
          rw [assemble, absent]
          refine (pair first).trans (and_congr_left fun _ => ?_)
          simp
      | none => simp [assemble, absent]

/-- **The members hold what the slots make up that they lead to.** -/
theorem holdsMembers_iff : (fields : Fields) → {members : List (String × Tree)} →
    {values : fields.Value} → (fields.HoldsMembers members values ↔
      ∃ slots, Json.TakesAll fields.Takes fields.vacant members slots ∧
        fields.assemble slots = .ok values)
  | .nil, members, values => by
      refine ⟨fun _ => ⟨⟨⟩, takesAll_nil _ _, rfl⟩, fun _ => trivial⟩
  | .cons key schema presence rest, members, (value, values) => by
      have others : rest.HoldsMembers (without key members) values ↔
          ∃ slots, Json.TakesAll rest.Takes rest.vacant (without key members) slots ∧
            rest.assemble slots = .ok values := rest.holdsMembers_iff
      constructor
      · rintro ⟨own, held⟩
        obtain ⟨slots, all, made⟩ := others.mp held
        match trees : valuesUnder key members, own with
        | [], absent =>
            refine ⟨(none, slots), takesAll_cons.mpr ⟨?_, all⟩,
              assemble_cons_iff.mpr ⟨.inr ⟨rfl, absent⟩, made⟩⟩
            rw [trees]
            rfl
        | [tree], held =>
            refine ⟨(some value, slots), takesAll_cons.mpr ⟨?_, all⟩,
              assemble_cons_iff.mpr ⟨.inl rfl, made⟩⟩
            rw [trees]
            exact ⟨rfl, value, rfl, held⟩
      · rintro ⟨⟨slot, slots⟩, all, made⟩
        obtain ⟨filled, further⟩ := takesAll_cons.mp all
        obtain ⟨own, made⟩ := assemble_cons_iff.mp made
        refine ⟨?_, others.mpr ⟨slots, further, made⟩⟩
        match valuesUnder key members, filled with
        | [], empty =>
            rcases own with full | ⟨-, absent⟩
            · cases empty.symm.trans full
            · exact absent
        | [tree], ⟨_, other, full, held⟩ =>
            rcases own with same | ⟨empty, -⟩
            · cases same.symm.trans full
              exact held
            · cases empty.symm.trans full

end Fields

/-! ## Reading is finding a tree -/

section Shapes

variable {tokens rest : List Token}

theorem Schema.read_sequence_eq_ok {item : Schema} {values : List item.Value}
    (reads : (Schema.sequence item).read tokens = .ok (values, rest)) :
    ∃ behind, tokens = .mark .openBracket :: behind ∧
      Json.readItems item.read (behind.length + 1) true behind = .ok (values, rest) := by
  cases tokens with
  | nil => cases reads
  | cons token behind =>
      cases token with
      | mark mark =>
          cases mark with
          | openBracket => exact ⟨behind, rfl, reads⟩
          | _ => cases reads
      | _ => cases reads

theorem Schema.read_table_eq_ok {entries : List (String × String)}
    (reads : Schema.table.read tokens = .ok (entries, rest)) :
    ∃ behind, tokens = .mark .openBrace :: behind ∧
      Json.readEntries (behind.length + 1) true behind = .ok (entries, rest) := by
  cases tokens with
  | nil => cases reads
  | cons token behind =>
      cases token with
      | mark mark =>
          cases mark with
          | openBrace => exact ⟨behind, rfl, reads⟩
          | _ => cases reads
      | _ => cases reads

/-- A record is read from an object or from an array. -/
theorem Schema.read_record_eq_ok {name : String} {fields : Fields} {values : fields.Value}
    (reads : (Schema.record name fields).read tokens = .ok (values, rest)) :
    (∃ behind slots, tokens = .mark .openBrace :: behind ∧
      Json.readFields fields.readField (behind.length + 1) true fields.vacant behind =
        .ok (slots, rest) ∧ fields.assemble slots = .ok values) ∨
    ∃ behind, tokens = .mark .openBracket :: behind ∧
      fields.readItems name fields.count 0 behind =
        .ok (values, .mark .closeBracket :: rest) := by
  unfold Schema.read at reads
  split at reads
  · obtain ⟨⟨slots, further⟩, goes, ends⟩ := bind_eq_ok.mp reads
    cases made : fields.assemble slots with
    | error key =>
        simp only [made] at ends
        cases ends
    | ok values =>
        simp only [made] at ends
        cases ends
        exact .inl ⟨_, slots, rfl, goes, made⟩
  · obtain ⟨⟨made, further⟩, goes, ends⟩ := bind_eq_ok.mp reads
    obtain ⟨last, closes, same⟩ := bind_eq_ok.mp ends
    cases same
    exact .inr ⟨_, rfl, Json.readListEnd_eq_ok closes ▸ goes⟩
  · cases reads

end Shapes

/-- Members that are not fields of the record leave its slots as they are. -/
theorem Fields.takes_of_unknown : (fields : Fields) → {found : String} → {slots : fields.Slots} →
    {tokens : List Token} → (unknown : fields.readField found slots tokens = none) →
    (tree : Tree) → fields.Takes slots found tree slots
  | .nil, _, _, _, _, _ => trivial
  | .cons key schema presence rest, found, (slot, slots), tokens, unknown, tree => by
      by_cases own : found = key
      · rw [Fields.readField, if_pos own] at unknown
        cases unknown
      · rw [Fields.readField, if_neg own, Option.map_eq_none_iff] at unknown
        rw [Fields.Takes, if_neg own]
        exact ⟨rfl, rest.takes_of_unknown unknown tree⟩

mutual

/-- What is read is what a tree in front holds. -/
theorem Schema.exists_tree_of_read : (schema : Schema) → (tokens : List Token) →
    (value : schema.Value) → (rest : List Token) →
    (reads : schema.read tokens = .ok (value, rest)) →
    ∃ tree : Tree, tokens = tree.tokens ++ rest ∧ schema.Holds tree value
  | .text, tokens, value, rest, reads => ⟨.text (.ok value), Json.readText_eq_ok reads, rfl⟩
  | .flag, tokens, value, rest, reads => ⟨.bool value, Json.readFlag_eq_ok reads, rfl⟩
  | .label names, tokens, place, rest, reads => by
      obtain ⟨label, finds, same | same⟩ := Json.readLabel_eq_ok reads
      · exact ⟨.text (.ok label), same, label, finds, .inl rfl⟩
      · exact ⟨_, same, label, finds, .inr rfl⟩
  | .optional inner, tokens, value, rest, reads => by
      rw [Schema.read_optional] at reads
      split at reads
      · cases reads
        exact ⟨.null, rfl, rfl⟩
      · rename_i present
        cases read : inner.read tokens with
        | error fault =>
            rw [read] at reads
            cases reads
        | ok front =>
            rw [read] at reads
            cases reads
            obtain ⟨tree, rfl, held⟩ := inner.exists_tree_of_read _ _ _ read
            refine ⟨tree, rfl, ?_, held⟩
            rintro rfl
            exact present _ rfl
  | .sequence item, tokens, values, rest, reads => by
      obtain ⟨behind, rfl, goes⟩ := Schema.read_sequence_eq_ok reads
      obtain ⟨items, rfl, each⟩ := Json.exists_items_of_readItems item.exists_tree_of_read goes
      refine ⟨.array items, ?_, items, rfl, each⟩
      simp [Tree.tokens]
  | .table, tokens, entries, rest, reads => by
      obtain ⟨behind, rfl, goes⟩ := Schema.read_table_eq_ok reads
      refine ⟨_, ?_, rfl⟩
      rw [Json.exists_entries_of_readEntries goes, Tree.ofMembers, Tree.tokens]
      simp
  | .record name fields, tokens, values, rest, reads => by
      rcases Schema.read_record_eq_ok reads with
        ⟨behind, slots, rfl, goes, made⟩ | ⟨behind, rfl, goes⟩
      · obtain ⟨members, rfl, all⟩ := Json.exists_members_of_readFields
          fields.exists_tree_of_readField
          (fun _ _ _ tree unknown => fields.takes_of_unknown unknown tree) goes
        refine ⟨.ofMembers members, ?_, .inl ⟨members, rfl,
          fields.holdsMembers_iff.mpr ⟨slots, all, made⟩⟩⟩
        simp [Tree.ofMembers, Tree.tokens]
      · obtain ⟨items, rfl, held⟩ := fields.exists_items_of_readItems name _ _ _ _ _ goes
        refine ⟨.array items, ?_, .inr ⟨items, rfl, held⟩⟩
        simp [Tree.tokens]

/-- A field that is known is entered from the tree behind its key. -/
theorem Fields.exists_tree_of_readField : (fields : Fields) → (found : String) →
    (slots : fields.Slots) → (tokens : List Token) → (next : fields.Slots) → (rest : List Token) →
    (reads : fields.readField found slots tokens = some (.ok (next, rest))) →
    ∃ tree : Tree, tokens = .mark .colon :: (tree.tokens ++ rest) ∧
      fields.Takes slots found tree next
  | .nil, _, _, _, _, _, reads => nomatch reads
  | .cons key schema presence others, found, (slot, slots), tokens, (next, nexts), rest, reads => by
      by_cases own : found = key
      · rw [Fields.readField, if_pos own, Option.some.injEq] at reads
        cases slot with
        | some value => cases reads
        | none =>
            obtain ⟨behind, colon, goes⟩ := bind_eq_ok.mp reads
            obtain ⟨⟨value, further⟩, one, same⟩ := bind_eq_ok.mp goes
            cases same
            obtain ⟨tree, rfl, held⟩ := schema.exists_tree_of_read _ _ _ one
            refine ⟨tree, Json.readColon_eq_ok colon, ?_⟩
            rw [Fields.Takes, if_pos own]
            exact ⟨⟨rfl, value, rfl, held⟩, rfl⟩
      · rw [Fields.readField, if_neg own, Option.map_eq_some_iff] at reads
        obtain ⟨read, entered, same⟩ := reads
        cases read with
        | error fault => cases same
        | ok front =>
            cases same
            obtain ⟨tree, shape, one⟩ := others.exists_tree_of_readField _ _ _ _ _ entered
            refine ⟨tree, shape, ?_⟩
            rw [Fields.Takes, if_neg own]
            exact ⟨rfl, one⟩

/-- The fields of an array are the items of it, one by one. -/
theorem Fields.exists_items_of_readItems (name : String) (count : Nat) : (fields : Fields) →
    (place : Nat) → (tokens : List Token) → (values : fields.Value) → (rest : List Token) →
    (reads : fields.readItems name count place tokens =
      .ok (values, .mark .closeBracket :: rest)) →
    ∃ items, tokens = Tree.itemTokens (place == 0) items ++ .mark .closeBracket :: rest ∧
      fields.HoldsItems items values
  | .nil, place, tokens, values, rest, reads => by
      cases reads
      exact ⟨[], rfl, rfl⟩
  | .cons key schema presence others, place, tokens, (value, values), rest, reads => by
      rw [Fields.readItems] at reads
      obtain ⟨⟨more, behind⟩, step, goes⟩ := bind_eq_ok.mp reads
      rcases Json.readListStep_eq_ok step with ⟨rfl, rfl, tail, ends⟩ | ⟨rfl, rfl⟩
      · -- The array has ended, so nothing is left for the other fields.
        cases absent : schema.absent? presence with
        | none => simp [absent, bind, Except.bind] at goes
        | some first =>
            simp only [absent, Bool.false_eq_true, if_false] at goes
            obtain ⟨⟨value, behind⟩, one, goesOn⟩ := bind_eq_ok.mp goes
            obtain ⟨⟨all, last⟩, read, same⟩ := bind_eq_ok.mp goesOn
            cases one
            cases same
            obtain ⟨items, shape, held⟩ := others.exists_items_of_readItems name count _ _ _ _ read
            have closed : Tree.itemTokens false [] ++ .mark .closeBracket :: tail =
                Tree.itemTokens false items ++ .mark .closeBracket :: rest := ends.symm.trans shape
            obtain ⟨rfl, rfl⟩ := Tree.itemTokens_append_inj false [] items closed
            exact ⟨[], ends, absent, held⟩
      · obtain ⟨⟨first, further⟩, one, goesOn⟩ := bind_eq_ok.mp goes
        obtain ⟨⟨all, last⟩, read, same⟩ := bind_eq_ok.mp goesOn
        cases same
        obtain ⟨items, shape, held⟩ := others.exists_items_of_readItems name count _ _ _ _ read
        obtain ⟨tree, rfl, own⟩ := schema.exists_tree_of_read _ _ _ one
        refine ⟨tree :: items, ?_, own, held⟩
        rw [shape, Tree.itemTokens]
        simp

end

/-! ## A tree is read -/

theorem Schema.read_entries (entries : List (String × String)) (rest : List Token) :
    Schema.table.read ((Tree.ofMembers (entries.map fun entry =>
      (entry.1, .text (.ok entry.2)))).tokens ++ rest) = .ok (entries, rest) := by
  have enough := Json.length_le_memberSpelling true
    (entries.map fun entry => (entry.1, Json.text entry.2))
  rw [List.length_map] at enough
  rw [Tree.ofMembers, Tree.tokens, List.cons_append, List.append_assoc, Schema.read_table,
    Json.memberTokens_entries]
  refine Json.readEntries_spelling entries ?_ true rest
  rw [List.length_append]
  omega

theorem Schema.read_array {name : String} {fields : Fields} {values : fields.Value}
    {behind rest : List Token}
    (read : fields.readItems name fields.count 0 behind =
      .ok (values, .mark .closeBracket :: rest)) :
    (Schema.record name fields).read (.mark .openBracket :: behind) = .ok (values, rest) := by
  show (fields.readItems name fields.count 0 behind >>= fun _ => _) = _
  rw [read]
  rfl

mutual

/-- What a tree holds is read off its tokens, up to where they end. -/
theorem Schema.read_of_holds : (schema : Schema) → (tree : Tree) → (value : schema.Value) →
    (rest : List Token) → (held : schema.Holds tree value) →
    schema.read (tree.tokens ++ rest) = .ok (value, rest)
  | .text, _, value, rest, rfl => rfl
  | .flag, _, value, rest, rfl => rfl
  | .label names, _, place, rest, ⟨label, finds, .inl rfl⟩ => (Json.readLabel_of_holds finds rest).1
  | .label names, _, place, rest, ⟨label, finds, .inr rfl⟩ => (Json.readLabel_of_holds finds rest).2
  | .optional inner, _, none, rest, rfl => rfl
  | .optional inner, tree, some value, rest, ⟨present, held⟩ => by
      have read := inner.read_of_holds tree value rest held
      have shown (tail : List Token) : tree.tokens ++ rest ≠ .null :: tail := by
        intro same
        exact present (Tree.tokens_append_inj tree .null same).1
      rw [Schema.read_present shown, read]
      rfl
  | .sequence item, _, values, rest, ⟨items, rfl, each⟩ => by
      have enough := Tree.length_le_itemTokens true items
      rw [Tree.tokens, List.cons_append, List.append_assoc, Schema.read_sequence]
      refine Json.readItems_itemTokens item.read_of_holds each ?_ true rest
      rw [List.length_append]
      omega
  | .table, _, entries, rest, rfl => Schema.read_entries entries rest
  | .record name fields, _, values, rest, .inl ⟨members, rfl, held⟩ => by
      obtain ⟨slots, all, made⟩ := fields.holdsMembers_iff.mp held
      have enough := Tree.length_le_memberTokens true (Tree.keyed members)
      have length : (Tree.keyed members).length = members.length := List.length_map _
      rw [Tree.ofMembers, Tree.tokens, List.cons_append, List.append_assoc, Schema.read_record,
        List.singleton_append, Json.readFields_memberTokens fields.readField_of_takes all
          (by rw [List.length_append]; omega) true rest]
      simp only [bind, Except.bind, made]
      rfl
  | .record name fields, _, values, rest, .inr ⟨items, rfl, held⟩ => by
      have read := fields.readItems_of_holds name fields.count 0 items values rest held
      rw [Tree.tokens, List.cons_append, List.append_assoc]
      exact Schema.read_array read

/-- A member that is a field is entered, and any other is not known. -/
theorem Fields.readField_of_takes : (fields : Fields) → (slots : fields.Slots) →
    (found : String) → (tree : Tree) → (next : fields.Slots) →
    (one : fields.Takes slots found tree next) →
    (∀ rest, fields.readField found slots (.mark .colon :: (tree.tokens ++ rest)) =
      some (.ok (next, rest))) ∨
    (next = slots ∧ ∀ tokens, fields.readField found slots tokens = none)
  | .nil, _, _, _, _, _ => .inr ⟨rfl, fun _ => rfl⟩
  | .cons key schema presence others, (slot, slots), found, tree, (next, nexts), one => by
      by_cases own : found = key
      · rw [Fields.Takes, if_pos own] at one
        obtain ⟨⟨rfl, value, rfl, held⟩, rfl⟩ := one
        refine .inl fun rest => ?_
        have read := schema.read_of_holds tree value rest held
        rw [Fields.readField, if_pos own]
        simp only [Json.readColon, bind, Except.bind, read]
        rfl
      · rw [Fields.Takes, if_neg own] at one
        obtain ⟨rfl, one⟩ := one
        rcases others.readField_of_takes slots found tree nexts one with enters | ⟨rfl, passes⟩
        · refine .inl fun rest => ?_
          rw [Fields.readField, if_neg own, enters]
          rfl
        · refine .inr ⟨rfl, fun tokens => ?_⟩
          rw [Fields.readField, if_neg own, passes]
          rfl

/-- The items of an array are read as the fields of a record. -/
theorem Fields.readItems_of_holds (name : String) (count : Nat) : (fields : Fields) →
    (place : Nat) → (items : List Tree) → (values : fields.Value) → (rest : List Token) →
    (held : fields.HoldsItems items values) →
    fields.readItems name count place
        (Tree.itemTokens (place == 0) items ++ .mark .closeBracket :: rest) =
      .ok (values, .mark .closeBracket :: rest)
  | .nil, _, _, _, _, rfl => rfl
  | .cons key schema presence others, place, [], (value, values), rest, ⟨absent, held⟩ => by
      have read := others.readItems_of_holds name count (place + 1) [] values rest held
      rw [Tree.itemTokens, List.nil_append] at read ⊢
      rw [Fields.readItems]
      simp only [Json.readListStep, bind, Except.bind, absent, read]
      rfl
  | .cons key schema presence others, place, tree :: items, (value, values), rest, ⟨own, held⟩ => by
      let further := Tree.itemTokens false items ++ .mark .closeBracket :: rest
      obtain ⟨token, tail, opens, apart, -⟩ := tree.tokens_open
      have step := Json.readListStep_separator (place == 0) (tail ++ further) apart
      have one := schema.read_of_holds tree value further own
      have read := others.readItems_of_holds name count (place + 1) items values rest held
      rw [opens, List.cons_append] at one
      rw [Tree.itemTokens, List.append_assoc, List.append_assoc, opens, List.cons_append,
        Fields.readItems, step]
      simp only [bind, Except.bind, if_true]
      rw [one]
      simp only [further]
      rw [show (place + 1 == 0) = false from rfl] at read
      rw [read]
      rfl

end

/-! ## The reader by what trees hold -/

variable {schema : Schema}

/-- **Reading finds the tree in front and what it holds.** -/
theorem Schema.read_eq_ok_iff {tokens rest : List Token} {value : schema.Value} :
    schema.read tokens = .ok (value, rest) ↔
      ∃ tree : Tree, tokens = tree.tokens ++ rest ∧ schema.Holds tree value := by
  constructor
  · exact schema.exists_tree_of_read tokens value rest
  · rintro ⟨tree, rfl, held⟩
    exact schema.read_of_holds tree value rest held

/-- **A tree holds one value at most.** -/
theorem Schema.Holds.unique {tree : Tree} {value other : schema.Value}
    (held : schema.Holds tree value) (also : schema.Holds tree other) : value = other := by
  have one := schema.read_of_holds tree value [] held
  have two := schema.read_of_holds tree other [] also
  cases one.symm.trans two
  rfl

/-- **A text is accepted if its tokens are those of a tree that holds a value**, and the value is
what is read. -/
theorem Schema.ofJson_eq_ok_iff {text : List Text.Glyph} {value : schema.Value} :
    schema.ofJson text = .ok value ↔
      ∃ tree : Tree, Json.tokens text = tree.tokens ∧ schema.Holds tree value := by
  constructor
  · intro reads
    obtain ⟨⟨found, rest⟩, read, ends⟩ := bind_eq_ok.mp reads
    cases rest with
    | nil =>
        cases ends
        obtain ⟨tree, shape, held⟩ := Schema.read_eq_ok_iff.mp read
        exact ⟨tree, by rw [shape, List.append_nil], held⟩
    | cons token rest => cases ends
  · rintro ⟨tree, shape, held⟩
    have read := schema.read_of_holds tree value [] held
    rw [List.append_nil] at read
    rw [Schema.ofJson, shape, read]
    rfl

end ProgramModel
