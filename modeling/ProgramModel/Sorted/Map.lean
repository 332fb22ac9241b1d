/-
# ProgramModel.Sorted.Map -- finite maps kept in ascending order of their keys

A `SortedMap` is an association list whose keys ascend strictly, so a key has at
most one value and two maps that answer every look-up alike are equal
(`SortedMap.ext`).  `get?_insert` says all there is to say about writing.
-/
import ProgramModel.Sorted.Order

namespace ProgramModel

set_option autoImplicit false

universe u v

/-- A finite map, held as its entries in strictly ascending order of keys. -/
structure SortedMap (κ : Type u) [Ord κ] (ν : Type v) where
  toList : List (κ × ν)
  ascending : toList.Pairwise (fun a b => compare a.1 b.1 = .lt)

namespace SortedMap

variable {κ : Type u} {ν : Type v} [Ord κ]

/-! ## Construction -/

/-- Write one entry into an ascending list, over an entry with the same key. -/
def place (key : κ) (value : ν) : List (κ × ν) → List (κ × ν)
  | [] => [(key, value)]
  | entry :: rest =>
      match compare key entry.1 with
      | .lt => (key, value) :: entry :: rest
      | .eq => (entry.1, value) :: rest
      | .gt => entry :: place key value rest

theorem key_of_mem_place {key : κ} {value : ν} {list : List (κ × ν)} {entry : κ × ν}
    (found : entry ∈ place key value list) : entry.1 = key ∨ ∃ old ∈ list, old.1 = entry.1 := by
  induction list with
  | nil => exact .inl (by simp only [place, List.mem_singleton] at found; rw [found])
  | cons head rest ih =>
      unfold place at found
      split at found
      · rcases List.mem_cons.mp found with rfl | later
        · exact .inl rfl
        · exact .inr ⟨entry, later, rfl⟩
      · rcases List.mem_cons.mp found with rfl | later
        · exact .inr ⟨head, List.mem_cons_self, rfl⟩
        · exact .inr ⟨entry, List.mem_cons_of_mem _ later, rfl⟩
      · rcases List.mem_cons.mp found with rfl | later
        · exact .inr ⟨entry, List.mem_cons_self, rfl⟩
        · rcases ih later with fresh | ⟨old, there, same⟩
          · exact .inl fresh
          · exact .inr ⟨old, List.mem_cons_of_mem _ there, same⟩

theorem ascending_place [Std.TransOrd κ] {list : List (κ × ν)} (key : κ) (value : ν)
    (ascending : list.Pairwise (fun a b => compare a.1 b.1 = .lt)) :
    (place key value list).Pairwise (fun a b => compare a.1 b.1 = .lt) := by
  induction list with
  | nil => simp [place]
  | cons head rest ih =>
      obtain ⟨below, later⟩ := List.pairwise_cons.mp ascending
      unfold place
      split
      case _ less =>
        refine List.pairwise_cons.mpr ⟨fun entry found => ?_, ascending⟩
        rcases List.mem_cons.mp found with rfl | found
        · exact less
        · exact Std.TransCmp.lt_trans less (below entry found)
      case _ => exact List.pairwise_cons.mpr ⟨below, later⟩
      case _ greater =>
        refine List.pairwise_cons.mpr ⟨fun entry found => ?_, ih later⟩
        rcases key_of_mem_place found with fresh | ⟨old, there, same⟩
        · rw [fresh]; exact Std.OrientedCmp.lt_of_gt greater
        · rw [← same]; exact below old there

/-- The map without entries. -/
def empty : SortedMap κ ν := ⟨[], List.Pairwise.nil⟩

instance : EmptyCollection (SortedMap κ ν) := ⟨empty⟩
instance : Inhabited (SortedMap κ ν) := ⟨empty⟩

/-- The map with one entry written, over an earlier entry for that key. -/
def insert [Std.TransOrd κ] (map : SortedMap κ ν) (key : κ) (value : ν) : SortedMap κ ν :=
  ⟨place key value map.toList, ascending_place key value map.ascending⟩

/-- The map of a list of entries; of two entries for a key the later one counts. -/
def ofList [Std.TransOrd κ] (list : List (κ × ν)) : SortedMap κ ν :=
  list.foldl (fun map entry => map.insert entry.1 entry.2) empty

/-- The value at a key. -/
def get? (map : SortedMap κ ν) (key : κ) : Option ν :=
  (map.toList.find? (fun entry => compare key entry.1 == .eq)).map (·.2)

/-- The number of entries. -/
def size (map : SortedMap κ ν) : Nat := map.toList.length

/-- The keys, ascending. -/
def keys (map : SortedMap κ ν) : List κ := map.toList.map (·.1)

/-- The values, in ascending order of their keys. -/
def values (map : SortedMap κ ν) : List ν := map.toList.map (·.2)

/-! ## Look-up -/

@[simp] theorem get?_empty (key : κ) : (empty : SortedMap κ ν).get? key = none := rfl

theorem find?_place [DecidableEq κ] [Std.TransOrd κ] [Std.LawfulEqOrd κ] (key other : κ) (value : ν)
    (list : List (κ × ν)) :
    ((place key value list).find? (fun entry => compare other entry.1 == .eq)).map (·.2) =
      if other = key then some value
      else (list.find? (fun entry => compare other entry.1 == .eq)).map (·.2) := by
  have self : ∀ k : κ, (compare k k == Ordering.eq) = true := fun k => by
    rw [Std.ReflOrd.compare_self]; rfl
  have differ : ∀ {k l : κ}, k ≠ l → (compare k l == Ordering.eq) = false := fun {k l} ne => by
    cases step : compare k l with
    | eq => exact absurd (Std.LawfulEqOrd.eq_of_compare step) ne
    | lt => rfl
    | gt => rfl
  induction list with
  | nil =>
      by_cases same : other = key
      · subst same; simp [place]
      · simp [place, same, differ same]
  | cons head rest ih =>
      unfold place
      split
      · by_cases same : other = key
        · subst same; simp
        · simp [List.find?_cons, same, differ same]
      case _ equal =>
        have key_eq := Std.LawfulEqOrd.eq_of_compare equal
        by_cases same : other = key
        · subst same; simp [key_eq]
        · have ne : other ≠ head.1 := fun h => same (h.trans key_eq.symm)
          simp [same, differ ne]
      case _ greater =>
        by_cases atHead : other = head.1
        · have ne : other ≠ key := fun h => by
            rw [← h, atHead, Std.ReflOrd.compare_self] at greater; cases greater
          subst atHead
          simp [ne]
        · simp only [List.find?_cons, differ atHead]
          exact ih

/-- **Writing changes the value at the written key and at no other.** -/
theorem get?_insert [DecidableEq κ] [Std.TransOrd κ] [Std.LawfulEqOrd κ] (map : SortedMap κ ν)
    (key other : κ) (value : ν) :
    (map.insert key value).get? other = if other = key then some value else map.get? other :=
  find?_place key other value map.toList

@[simp] theorem get?_insert_self [DecidableEq κ] [Std.TransOrd κ] [Std.LawfulEqOrd κ]
    (map : SortedMap κ ν) (key : κ) (value : ν) :
    (map.insert key value).get? key = some value := by
  rw [get?_insert, if_pos rfl]

theorem get?_insert_of_ne [DecidableEq κ] [Std.TransOrd κ] [Std.LawfulEqOrd κ] (map : SortedMap κ ν)
    {key other : κ} (value : ν) (differ : other ≠ key) :
    (map.insert key value).get? other = map.get? other := by
  rw [get?_insert, if_neg differ]

theorem length_place_of_find?_none [Std.TransOrd κ] {key : κ} {value : ν} {list : List (κ × ν)}
    (absent : list.find? (fun entry => compare key entry.1 == .eq) = none) :
    (place key value list).length = list.length + 1 := by
  induction list with
  | nil => rfl
  | cons head rest ih =>
      unfold place
      split
      · rfl
      case _ equal => simp [equal] at absent
      case _ greater =>
        rw [List.length_cons, ih (by simpa [greater] using absent), List.length_cons]

/-- Writing at a new key adds one entry. -/
theorem size_insert_of_get?_none [Std.TransOrd κ] {map : SortedMap κ ν} {key : κ} {value : ν}
    (absent : map.get? key = none) : (map.insert key value).size = map.size + 1 :=
  length_place_of_find?_none (Option.map_eq_none_iff.mp absent)

/-! ## Equality -/

theorem toList_injective {left right : SortedMap κ ν} (same : left.toList = right.toList) :
    left = right := by
  cases left; cases right; cases same; rfl

instance [DecidableEq κ] [DecidableEq ν] : DecidableEq (SortedMap κ ν) := fun left right =>
  if same : left.toList = right.toList then isTrue (toList_injective same)
  else isFalse fun equal => same (congrArg toList equal)

theorem find?_eq_some_of_mem [Std.TransOrd κ] [Std.LawfulEqOrd κ] {list : List (κ × ν)}
    (ascending : list.Pairwise (fun a b => compare a.1 b.1 = .lt)) {entry : κ × ν}
    (found : entry ∈ list) :
    list.find? (fun other => compare entry.1 other.1 == .eq) = some entry := by
  induction list with
  | nil => simp at found
  | cons head rest ih =>
      obtain ⟨below, later⟩ := List.pairwise_cons.mp ascending
      rcases List.mem_cons.mp found with rfl | there
      · simp [Std.ReflOrd.compare_self]
      · have less := below entry there
        have greater := Std.OrientedCmp.gt_of_lt less
        rw [List.find?_cons, greater]
        exact ih later there

/-- An entry of the list is what a look-up of its key finds, and nothing else is. -/
theorem get?_eq_some_iff [Std.TransOrd κ] [Std.LawfulEqOrd κ] {map : SortedMap κ ν} {key : κ}
    {value : ν} : map.get? key = some value ↔ (key, value) ∈ map.toList := by
  constructor
  · intro found
    obtain ⟨entry, at_entry, rfl⟩ := Option.map_eq_some_iff.mp found
    have equal := List.find?_some at_entry
    have key_eq : key = entry.1 := Std.LawfulEqOrd.eq_of_compare (by simpa using equal)
    rw [key_eq]
    exact List.mem_of_find?_eq_some at_entry
  · intro found
    unfold get?
    rw [find?_eq_some_of_mem map.ascending found]
    rfl

/-- **A map is its look-ups.** -/
theorem ext [Std.TransOrd κ] [Std.LawfulEqOrd κ] {left right : SortedMap κ ν}
    (same : ∀ key, left.get? key = right.get? key) : left = right := by
  refine toList_injective (eq_of_strict_pairwise (fun _ => not_compare_self_lt _)
    (fun _ _ => not_compare_swap_lt _ _) left.ascending right.ascending fun entry => ?_)
  rw [← get?_eq_some_iff, ← get?_eq_some_iff, same]

/-- Of two values written at a key the later one stays. -/
theorem insert_insert [DecidableEq κ] [Std.TransOrd κ] [Std.LawfulEqOrd κ] (map : SortedMap κ ν)
    (key : κ) (earlier later : ν) :
    (map.insert key earlier).insert key later = map.insert key later := by
  apply ext
  intro other
  rw [get?_insert, get?_insert, get?_insert]
  split <;> rfl

/-! ## Keys -/

theorem nodup_keys [Std.TransOrd κ] (map : SortedMap κ ν) : map.keys.Nodup := by
  refine List.pairwise_map.mpr (map.ascending.imp fun {a b} less same => ?_)
  rw [same] at less
  exact not_compare_self_lt _ less

/-- A key is one of those for which a look-up finds something. -/
theorem mem_keys_iff [Std.TransOrd κ] [Std.LawfulEqOrd κ] {map : SortedMap κ ν} {key : κ} :
    key ∈ map.keys ↔ ∃ value, map.get? key = some value := by
  simp only [keys, List.mem_map, get?_eq_some_iff]
  constructor
  · rintro ⟨⟨_, value⟩, there, rfl⟩
    exact ⟨value, there⟩
  · rintro ⟨value, there⟩
    exact ⟨(key, value), there, rfl⟩

/-! ## A map rebuilt from its own list -/

section Rebuilding

variable [DecidableEq κ] [Std.TransOrd κ] [Std.LawfulEqOrd κ] {list : List (κ × ν)}
  {map : SortedMap κ ν} {key : κ}

/-- Writing other entries leaves what a key has. -/
theorem get?_foldl_insert_of_not_mem (absent : key ∉ list.map (·.1)) :
    (list.foldl (fun map entry => map.insert entry.1 entry.2) map).get? key = map.get? key := by
  induction list generalizing map with
  | nil => rfl
  | cons entry rest ih =>
      rw [List.map_cons, List.mem_cons, not_or] at absent
      rw [List.foldl_cons, ih absent.2, get?_insert_of_ne _ _ absent.1]

/-- Of entries with different keys each is found under its own. -/
theorem get?_foldl_insert {value : ν} (distinct : (list.map (·.1)).Nodup)
    (there : (key, value) ∈ list) :
    (list.foldl (fun map entry => map.insert entry.1 entry.2) map).get? key = some value := by
  induction list generalizing map with
  | nil => cases there
  | cons entry rest ih =>
      obtain ⟨fresh, distinct⟩ := List.nodup_cons.mp distinct
      rcases List.mem_cons.mp there with rfl | later
      · rw [List.foldl_cons, get?_foldl_insert_of_not_mem fresh, get?_insert_self]
      · exact ih distinct later

theorem ofList_toList (map : SortedMap κ ν) : ofList map.toList = map := by
  refine ext fun key => ?_
  cases found : map.get? key with
  | some value => exact get?_foldl_insert map.nodup_keys (get?_eq_some_iff.mp found)
  | none =>
      refine get?_foldl_insert_of_not_mem fun listed => ?_
      obtain ⟨value, there⟩ := mem_keys_iff.mp listed
      rw [found] at there
      cases there

/-- Entries with different keys make the same map in whatever order. -/
theorem ofList_perm {other : List (κ × ν)} (permuted : list.Perm other)
    (distinct : (list.map (·.1)).Nodup) : ofList list = ofList other := by
  have keys : (list.map (·.1)).Perm (other.map (·.1)) := permuted.map _
  refine ext fun key => ?_
  unfold ofList
  by_cases listed : key ∈ list.map (·.1)
  · obtain ⟨⟨_, value⟩, there, rfl⟩ := List.mem_map.mp listed
    rw [get?_foldl_insert distinct there,
      get?_foldl_insert (keys.nodup distinct) (permuted.mem_iff.mp there)]
  · rw [get?_foldl_insert_of_not_mem listed,
      get?_foldl_insert_of_not_mem fun there => listed (keys.mem_iff.mpr there)]

end Rebuilding

end SortedMap

end ProgramModel
