/-
# ProgramModel.Proofs.Registry -- what an id stands for, and for how long

An id is a number.  It stands for the method at its place, and `Denotes` says which
method that is.  Because no two methods of a registry share an identity, ids and
identities determine each other (`Denotes.identity_unique`, `Denotes.id_unique`), and
looking an identity up is the same as asking which id denotes it
(`find?_eq_some_iff`).

A registry only grows: `Extends` says that one registry has the identities of another
as its first ones, and what an id denotes it denotes in every extension
(`Denotes.of_extends`).  Entering a method and changing metadata both extend; entering one
also `Appends`, which leaves the methods that there are as they are.
-/
import ProgramModel.Attribution

namespace ProgramModel

set_option autoImplicit false

namespace MethodRegistry

/-! ## Ids and identities -/

/-- The identities of the methods, in the order of first sight. -/
def identities (registry : MethodRegistry) : List MethodIdentity :=
  registry.methods.map Method.identity

/-- The id is the place of a method with the identity. -/
def Denotes (registry : MethodRegistry) (id : MethodId) (identity : MethodIdentity) : Prop :=
  registry.identities[id.index]? = some identity

variable {registry later : MethodRegistry} {id other : MethodId} {identity : MethodIdentity}

theorem denotes_iff : registry.Denotes id identity ↔
    ∃ method, registry.get? id = some method ∧ method.identity = identity := by
  unfold Denotes identities get?
  rw [List.getElem?_map, Option.map_eq_some_iff]

theorem Denotes.identity_unique {another : MethodIdentity} (first : registry.Denotes id identity)
    (second : registry.Denotes id another) : identity = another :=
  Option.some.inj (first.symm.trans second)

/-- No two ids denote one identity. -/
theorem Denotes.id_unique (first : registry.Denotes id identity)
    (second : registry.Denotes other identity) : id = other := by
  have inside : id.index < registry.identities.length :=
    (List.getElem?_eq_some_iff.mp first).1
  have places : id.index = other.index :=
    (List.getElem?_inj inside registry.distinct).mp (first.trans second.symm)
  cases id; cases other; cases places
  rfl

theorem Denotes.identity_eq (denotes : registry.Denotes id identity) :
    registry.identity id = identity := by
  obtain ⟨method, there, rfl⟩ := denotes_iff.mp denotes
  simp [MethodRegistry.identity, there]

theorem denotes_of_find? (found : registry.find? identity = some id) :
    registry.Denotes id identity := by
  obtain ⟨place, at_place, rfl⟩ := Option.map_eq_some_iff.mp found
  obtain ⟨inside, equal, -⟩ := List.findIdx?_eq_some_iff_getElem.mp at_place
  refine denotes_iff.mpr ⟨registry.methods[place], List.getElem?_eq_getElem inside, ?_⟩
  simpa using equal

/-- Looking an identity up finds the id that denotes it. -/
theorem find?_eq_some_iff : registry.find? identity = some id ↔ registry.Denotes id identity := by
  constructor
  · exact denotes_of_find?
  · intro denotes
    cases search : registry.find? identity with
    | none => exact absurd (List.mem_of_getElem? denotes) (not_mem_of_find? search)
    | some place => rw [(denotes_of_find? search).id_unique denotes]

theorem find?_eq_none_iff : registry.find? identity = none ↔ identity ∉ registry.identities := by
  constructor
  · exact not_mem_of_find?
  · intro absent
    cases found : registry.find? identity with
    | none => rfl
    | some id => exact absurd (List.mem_of_getElem? (find?_eq_some_iff.mp found)) absent

/-! ## Growth -/

/-- The later registry has the identities of the earlier one at their places. -/
def Extends (later earlier : MethodRegistry) : Prop := earlier.identities <+: later.identities

theorem Extends.refl (registry : MethodRegistry) : registry.Extends registry := List.prefix_rfl

theorem Extends.trans {last : MethodRegistry} (second : last.Extends later)
    (first : later.Extends registry) : last.Extends registry :=
  List.IsPrefix.trans first second

/-- **What an id denotes, it denotes for good.** -/
theorem Denotes.of_extends (denotes : registry.Denotes id identity)
    (grown : later.Extends registry) : later.Denotes id identity := by
  obtain ⟨more, same⟩ := grown
  have inside : id.index < registry.identities.length :=
    (List.getElem?_eq_some_iff.mp denotes).1
  unfold Denotes
  rw [← same, List.getElem?_append_left inside]
  exact denotes

/-- The later registry has the methods of the earlier one as they are, and behind them new ones
about which nothing is noted. -/
def Appends (later earlier : MethodRegistry) : Prop :=
  ∃ further : List MethodIdentity,
    later.methods = earlier.methods ++ further.map (Method.mk · ∅)

theorem Appends.refl (registry : MethodRegistry) : registry.Appends registry :=
  ⟨[], (List.append_nil _).symm⟩

theorem Appends.trans {last : MethodRegistry} (second : last.Appends later)
    (first : later.Appends registry) : last.Appends registry := by
  obtain ⟨new, methods⟩ := first
  obtain ⟨newer, more⟩ := second
  refine ⟨new ++ newer, ?_⟩
  rw [more, methods, List.map_append, List.append_assoc]

theorem Appends.prefix_methods (appends : later.Appends registry) :
    registry.methods <+: later.methods := by
  obtain ⟨further, methods⟩ := appends
  rw [methods]
  exact List.prefix_append _ _

theorem Appends.extends (appends : later.Appends registry) : later.Extends registry :=
  appends.prefix_methods.map Method.identity

/-- A method that is there stays there as it is. -/
theorem Appends.get?_kept {method : Method} (appends : later.Appends registry)
    (there : registry.get? id = some method) : later.get? id = some method := by
  obtain ⟨more, methods⟩ := appends.prefix_methods
  have inside : id.index < registry.methods.length := (List.getElem?_eq_some_iff.mp there).1
  rw [get?, ← methods, List.getElem?_append_left inside]
  exact there

/-- A method that was not there has no metadata. -/
theorem Appends.get?_new {method : Method} (appends : later.Appends registry)
    (there : later.get? id = some method) (absent : registry.get? id = none) :
    method.metadata = ∅ := by
  obtain ⟨further, methods⟩ := appends
  have beyond : registry.methods.length ≤ id.index := List.getElem?_eq_none_iff.mp absent
  rw [get?, methods, List.getElem?_append_right beyond] at there
  obtain ⟨identity, -, rfl⟩ := List.mem_map.mp (List.mem_of_getElem? there)
  rfl

/-! ## Entering methods -/

theorem intern_of_denotes (denotes : registry.Denotes id identity) :
    registry.intern identity = (id, registry) := by
  unfold intern
  split
  · rename_i found at_found
    rw [(find?_eq_some_iff.mp at_found).id_unique denotes]
  · rename_i absent
    rw [find?_eq_some_iff.mpr denotes] at absent
    cases absent

/-- Entering an identity leaves the registry alone or puts the identity at its end. -/
theorem intern_cases (registry : MethodRegistry) (identity : MethodIdentity) :
    (∃ id, registry.Denotes id identity ∧ registry.intern identity = (id, registry)) ∨
      (identity ∉ registry.identities ∧
        (registry.intern identity).1 = ⟨registry.size⟩ ∧
        (registry.intern identity).2.methods = registry.methods ++ [{ identity := identity }]) := by
  cases search : registry.find? identity with
  | some id =>
      have denotes := find?_eq_some_iff.mp search
      exact .inl ⟨id, denotes, intern_of_denotes denotes⟩
  | none =>
      refine .inr ⟨not_mem_of_find? search, ?_⟩
      unfold intern
      split
      · rename_i found at_found
        rw [search] at at_found
        cases at_found
      · exact ⟨rfl, rfl⟩

/-- **The id of an identity denotes it.** -/
theorem intern_denotes (registry : MethodRegistry) (identity : MethodIdentity) :
    (registry.intern identity).2.Denotes (registry.intern identity).1 identity := by
  rcases intern_cases registry identity with ⟨id, denotes, same⟩ | ⟨-, place, methods⟩
  · rw [same]; exact denotes
  · unfold Denotes identities
    rw [place, methods]
    simp [size]

theorem intern_appends (registry : MethodRegistry) (identity : MethodIdentity) :
    (registry.intern identity).2.Appends registry := by
  rcases intern_cases registry identity with ⟨id, -, same⟩ | ⟨-, -, methods⟩
  · rw [same]
    exact Appends.refl registry
  · exact ⟨[identity], methods⟩

theorem intern_extends (registry : MethodRegistry) (identity : MethodIdentity) :
    (registry.intern identity).2.Extends registry :=
  (intern_appends registry identity).extends

/-! ## Changing metadata -/

/-- Metadata plays no part in what a method is known by. -/
@[simp] theorem identities_modifyMetadata (registry : MethodRegistry) (id : MethodId)
    (change : Metadata → Metadata) :
    (registry.modifyMetadata id change).identities = registry.identities :=
  map_identity_modify registry.methods id.index change

theorem modifyMetadata_extends (registry : MethodRegistry) (id : MethodId)
    (change : Metadata → Metadata) : (registry.modifyMetadata id change).Extends registry := by
  have same := identities_modifyMetadata registry id change
  exact ⟨[], (List.append_nil _).trans same.symm⟩

theorem tagKind_extends (registry : MethodRegistry) (id : MethodId) (kind : MethodKind) :
    (registry.tagKind id kind).Extends registry :=
  modifyMetadata_extends registry id _

end MethodRegistry

/-! ## Entering references -/

namespace ArtifactResolver

theorem resolve_denotes (resolver : ArtifactResolver) (registry : MethodRegistry)
    (method : MethodReference) :
    (resolver.resolve registry method).2.Denotes (resolver.resolve registry method).1
      (resolver.identify method) :=
  MethodRegistry.intern_denotes registry _

theorem resolve_extends (resolver : ArtifactResolver) (registry : MethodRegistry)
    (method : MethodReference) : (resolver.resolve registry method).2.Extends registry :=
  MethodRegistry.intern_extends registry _

end ArtifactResolver

end ProgramModel
