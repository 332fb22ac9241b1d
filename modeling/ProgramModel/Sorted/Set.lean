/-
# ProgramModel.Sorted.Set -- finite sets kept as strictly ascending lists

A `SortedSet` has one list for each set of members, so two sets with the same
members are equal (`SortedSet.ext`), and the list is also the order in which the
set is written out.  Everything a client may know about an operation is a
statement about membership; `mem_insert` and `mem_ofList` are the two that the
rest of the library uses.
-/
import ProgramModel.Sorted.Order

namespace ProgramModel

set_option autoImplicit false

universe u

/-- A finite set, held as its members in strictly ascending order. -/
structure SortedSet (α : Type u) [Ord α] where
  toList : List α
  ascending : toList.Pairwise (fun a b => compare a b = .lt)

namespace SortedSet

variable {α : Type u} [Ord α]

/-! ## Construction -/

/-- Put one value at its place in an ascending list; a value already there stays as it is. -/
def place (x : α) : List α → List α
  | [] => [x]
  | y :: rest =>
      match compare x y with
      | .lt => x :: y :: rest
      | .eq => y :: rest
      | .gt => y :: place x rest

theorem mem_place_of_mem {x y : α} {list : List α} (found : y ∈ list) : y ∈ place x list := by
  induction list with
  | nil => simp at found
  | cons z rest ih =>
      unfold place
      split
      · exact List.mem_cons_of_mem _ found
      · exact found
      · rcases List.mem_cons.mp found with rfl | later
        · exact List.mem_cons_self
        · exact List.mem_cons_of_mem _ (ih later)

theorem eq_or_mem_of_mem_place {x y : α} {list : List α} (found : y ∈ place x list) :
    y = x ∨ y ∈ list := by
  induction list with
  | nil => exact .inl (by simpa [place] using found)
  | cons z rest ih =>
      unfold place at found
      split at found
      · rcases List.mem_cons.mp found with rfl | later
        · exact .inl rfl
        · exact .inr later
      · exact .inr found
      · rcases List.mem_cons.mp found with rfl | later
        · exact .inr List.mem_cons_self
        · exact (ih later).imp id (List.mem_cons_of_mem _)

theorem ascending_place [Std.TransOrd α] {list : List α} (x : α)
    (ascending : list.Pairwise (fun a b => compare a b = .lt)) :
    (place x list).Pairwise (fun a b => compare a b = .lt) := by
  induction list with
  | nil => simp [place]
  | cons y rest ih =>
      obtain ⟨below, later⟩ := List.pairwise_cons.mp ascending
      unfold place
      split
      case _ less =>
        refine List.pairwise_cons.mpr ⟨fun z found => ?_, ascending⟩
        rcases List.mem_cons.mp found with rfl | found
        · exact less
        · exact Std.TransCmp.lt_trans less (below z found)
      case _ => exact ascending
      case _ greater =>
        refine List.pairwise_cons.mpr ⟨fun z found => ?_, ih later⟩
        rcases eq_or_mem_of_mem_place found with rfl | found
        · exact Std.OrientedCmp.lt_of_gt greater
        · exact below z found

/-- The set without members. -/
def empty : SortedSet α := ⟨[], List.Pairwise.nil⟩

instance : EmptyCollection (SortedSet α) := ⟨empty⟩
instance : Inhabited (SortedSet α) := ⟨empty⟩

/-- The set with one more member. -/
def insert [Std.TransOrd α] (set : SortedSet α) (x : α) : SortedSet α :=
  ⟨place x set.toList, ascending_place x set.ascending⟩

/-- The set of the members of a list, in whatever order and however often they stand in it. -/
def ofList [Std.TransOrd α] (list : List α) : SortedSet α :=
  list.foldl insert empty

/-- The number of members. -/
def size (set : SortedSet α) : Nat := set.toList.length

/-- Whether a value compares equal to a member. -/
def contains (set : SortedSet α) (x : α) : Bool :=
  set.toList.any (fun y => compare x y == .eq)

/-! ## Membership -/

instance : Membership α (SortedSet α) := ⟨fun set x => x ∈ set.toList⟩

theorem mem_def {x : α} {set : SortedSet α} : x ∈ set ↔ x ∈ set.toList := Iff.rfl

@[simp] theorem not_mem_empty (x : α) : ¬ x ∈ (empty : SortedSet α) := by
  simp [mem_def, empty]

theorem contains_iff [Std.LawfulEqOrd α] {set : SortedSet α} {x : α} :
    set.contains x = true ↔ x ∈ set := by
  simp only [contains, List.any_eq_true, mem_def, beq_iff_eq]
  constructor
  · rintro ⟨y, found, equal⟩
    rwa [Std.LawfulEqOrd.eq_of_compare equal]
  · intro found
    exact ⟨x, found, Std.ReflOrd.compare_self⟩

theorem mem_place_self [Std.LawfulEqOrd α] (x : α) (list : List α) : x ∈ place x list := by
  induction list with
  | nil => simp [place]
  | cons y rest ih =>
      unfold place
      split
      · exact List.mem_cons_self
      case _ equal =>
        rw [Std.LawfulEqOrd.eq_of_compare equal]
        exact List.mem_cons_self
      · exact List.mem_cons_of_mem _ ih

/-- **Inserting adds exactly the inserted value.** -/
@[simp] theorem mem_insert [Std.TransOrd α] [Std.LawfulEqOrd α] {set : SortedSet α} {x y : α} :
    y ∈ set.insert x ↔ y = x ∨ y ∈ set := by
  constructor
  · exact eq_or_mem_of_mem_place
  · rintro (rfl | found)
    · exact mem_place_self _ _
    · exact mem_place_of_mem found

theorem mem_foldl_insert [Std.TransOrd α] [Std.LawfulEqOrd α] {list : List α} {set : SortedSet α}
    {y : α} : y ∈ list.foldl insert set ↔ y ∈ list ∨ y ∈ set := by
  induction list generalizing set with
  | nil => simp
  | cons x rest ih =>
      rw [List.foldl_cons, ih, mem_insert, List.mem_cons]
      constructor
      · rintro (found | rfl | found)
        · exact .inl (.inr found)
        · exact .inl (.inl rfl)
        · exact .inr found
      · rintro ((rfl | found) | found)
        · exact .inr (.inl rfl)
        · exact .inl found
        · exact .inr (.inr found)

/-- **The set of a list has the members of the list.** -/
@[simp] theorem mem_ofList [Std.TransOrd α] [Std.LawfulEqOrd α] {list : List α} {y : α} :
    y ∈ ofList list ↔ y ∈ list := by
  simp [ofList, mem_foldl_insert]

/-! ## Extensionality -/

theorem toList_injective {left right : SortedSet α} (same : left.toList = right.toList) :
    left = right := by
  cases left; cases right; cases same; rfl

/-- **A set is its members.** -/
theorem ext [Std.TransOrd α] [Std.LawfulEqOrd α] {left right : SortedSet α}
    (same : ∀ x, x ∈ left ↔ x ∈ right) : left = right :=
  toList_injective (eq_of_strict_pairwise not_compare_self_lt not_compare_swap_lt
    left.ascending right.ascending same)

instance [DecidableEq α] : DecidableEq (SortedSet α) := fun left right =>
  if same : left.toList = right.toList then isTrue (toList_injective same)
  else isFalse fun equal => same (congrArg toList equal)

/-! ## Size -/

/-- Inserting a member changes nothing. -/
theorem insert_of_mem [Std.TransOrd α] [Std.LawfulEqOrd α] {set : SortedSet α} {x : α}
    (member : x ∈ set) : set.insert x = set := by
  apply ext
  intro y
  rw [mem_insert]
  constructor
  · rintro (rfl | found)
    · exact member
    · exact found
  · exact .inr

theorem length_place_of_not_mem [Std.LawfulEqOrd α] {x : α} {list : List α}
    (absent : x ∉ list) : (place x list).length = list.length + 1 := by
  induction list with
  | nil => rfl
  | cons y rest ih =>
      unfold place
      split
      · rfl
      case _ equal =>
        exact absurd (Std.LawfulEqOrd.eq_of_compare equal ▸ List.mem_cons_self) absent
      · rw [List.length_cons, ih fun later => absent (List.mem_cons_of_mem _ later),
          List.length_cons]

/-- Inserting anything else adds one member. -/
theorem size_insert_of_not_mem [Std.TransOrd α] [Std.LawfulEqOrd α] {set : SortedSet α} {x : α}
    (absent : ¬ x ∈ set) : (set.insert x).size = set.size + 1 :=
  length_place_of_not_mem absent

/-- A set grows by the insertions that are not yet in it. -/
theorem size_insert [Std.TransOrd α] [Std.LawfulEqOrd α] (set : SortedSet α) (x : α) :
    (set.insert x).size = set.size + (!set.contains x).toNat := by
  cases known : set.contains x with
  | true => simp [insert_of_mem (contains_iff.mp known)]
  | false =>
      have absent : ¬ x ∈ set := fun member => by
        rw [contains_iff.mpr member] at known
        cases known
      simp [size_insert_of_not_mem absent]

theorem size_foldl_insert [Std.TransOrd α] [Std.LawfulEqOrd α] {list : List α} {set : SortedSet α}
    (distinct : list.Nodup) (apart : ∀ x ∈ list, ¬ x ∈ set) :
    (list.foldl insert set).size = set.size + list.length := by
  induction list generalizing set with
  | nil => rfl
  | cons x rest ih =>
      obtain ⟨fresh, distinct⟩ := List.nodup_cons.mp distinct
      have later : ∀ y ∈ rest, ¬ y ∈ set.insert x := by
        intro y listed member
        rcases mem_insert.mp member with rfl | old
        · exact fresh listed
        · exact apart y (List.mem_cons_of_mem _ listed) old
      rw [List.foldl_cons, ih distinct later, size_insert_of_not_mem (apart x List.mem_cons_self),
        List.length_cons]
      omega

/-- The set of a list without repetitions has as many members as the list. -/
theorem size_ofList [Std.TransOrd α] [Std.LawfulEqOrd α] {list : List α} (distinct : list.Nodup) :
    (ofList list).size = list.length := by
  have counted := size_foldl_insert distinct (fun x _ => not_mem_empty x)
  rw [ofList, counted]
  exact Nat.zero_add _

theorem nodup_toList [Std.TransOrd α] (set : SortedSet α) : set.toList.Nodup := by
  refine set.ascending.imp fun {a b} less same => ?_
  rw [same] at less
  exact not_compare_self_lt _ less

/-! ## Order -/

/-- Sets compare as their ascending lists do. -/
instance : Ord (SortedSet α) := ⟨compareOn fun set => set.toList⟩

instance [Std.TransOrd α] : Std.TransOrd (SortedSet α) :=
  inferInstanceAs (Std.TransCmp (compareOn fun set : SortedSet α => set.toList))

instance [Std.LawfulEqOrd α] : Std.LawfulEqOrd (SortedSet α) where
  compare_self {a} := @Std.ReflOrd.compare_self (List α) _ _ a.toList
  eq_of_compare {a b} equal := toList_injective
    (@Std.LawfulEqOrd.eq_of_compare (List α) _ _ a.toList b.toList equal)

/-! ## A set rebuilt from its own list -/

theorem ofList_toList [Std.TransOrd α] [Std.LawfulEqOrd α] (set : SortedSet α) :
    ofList set.toList = set :=
  ext fun _ => by rw [mem_ofList, mem_def]

/-! ## Images -/

section Images

variable {β : Type u} [Ord β] [Std.TransOrd β] {set : SortedSet α}

theorem mem_ofList_map [Std.LawfulEqOrd β] {image : α → β} {y : β} :
    y ∈ ofList (set.toList.map image) ↔ ∃ x ∈ set, image x = y := by
  rw [mem_ofList, List.mem_map]
  rfl

theorem ofList_map_congr {image other : α → β} (same : ∀ x ∈ set, image x = other x) :
    ofList (set.toList.map image) = ofList (set.toList.map other) :=
  congrArg ofList (List.map_congr_left same)

/-- **An image under a function that merges no members has as many members.** -/
theorem size_ofList_map [Std.TransOrd α] [Std.LawfulEqOrd β] {image : α → β}
    (injective : ∀ x ∈ set, ∀ y ∈ set, image x = image y → x = y) :
    (ofList (set.toList.map image)).size = set.size := by
  have distinct : (set.toList.map image).Nodup := by
    refine List.pairwise_map.mpr (set.nodup_toList.imp_of_mem ?_)
    intro x y left right differs same
    exact differs (injective x left y right same)
  rw [size_ofList distinct, List.length_map]
  rfl

/-- The image of a set with one more member has one more member, too. -/
theorem ofList_map_insert [Std.TransOrd α] [Std.LawfulEqOrd α] [Std.LawfulEqOrd β]
    (set : SortedSet α) (image : α → β) (x : α) :
    ofList ((set.insert x).toList.map image) =
      (ofList (set.toList.map image)).insert (image x) := by
  apply ext
  intro y
  simp only [mem_insert, mem_ofList_map]
  constructor
  · rintro ⟨z, rfl | there, rfl⟩
    · exact .inl rfl
    · exact .inr ⟨z, there, rfl⟩
  · rintro (rfl | ⟨z, there, rfl⟩)
    · exact ⟨x, .inl rfl, rfl⟩
    · exact ⟨z, .inr there, rfl⟩

end Images

end SortedSet

end ProgramModel
