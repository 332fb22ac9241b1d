/-
# ProgramModel.Method.Registry -- one entity per method

A registry holds every method of a build once.  An id is a method's place in the
registry; since methods are only ever added at the end, an id stays good for as
long as the registry lives, and ids count methods in the order of first sight.
That no two entries share an identity is part of the type.

The store behind a registry (`MethodArena`) finds a method in a map by its key, and its ids
(`MethodHandle`) have 32 bits.  So what is said here of ids is true of those for a registry
of up to 2 ^ 32 methods.
-/
import ProgramModel.Method.Basic

namespace ProgramModel

set_option autoImplicit false

/-- A method's place in its registry.  A place is a number without a bound; in the store
behind a registry it has 32 bits, which tell 2 ^ 32 methods apart. -/
structure MethodId where
  index : Nat
  deriving DecidableEq, Repr, Inhabited

namespace MethodId

/-- Ids ascend with the order of first sight. -/
instance : Ord MethodId := ⟨compareOn index⟩

instance : Std.TransOrd MethodId := inferInstanceAs (Std.TransCmp (compareOn index))

instance : Std.LawfulEqOrd MethodId where
  compare_self {a} := @Std.ReflCmp.compare_self _ (compareOn index) _ a
  eq_of_compare {a b} equal := by cases a; cases b; cases compareOn_eq equal; rfl

end MethodId

/-- The methods of one build, in the order of first sight. -/
structure MethodRegistry where
  methods : List Method
  distinct : (methods.map Method.identity).Nodup

namespace MethodRegistry

def empty : MethodRegistry := ⟨[], List.nodup_nil⟩

instance : EmptyCollection MethodRegistry := ⟨empty⟩
instance : Inhabited MethodRegistry := ⟨empty⟩

/-- The number of methods. -/
def size (registry : MethodRegistry) : Nat := registry.methods.length

/-- The method at a place. -/
def get? (registry : MethodRegistry) (id : MethodId) : Option Method := registry.methods[id.index]?

/-- The place of the method with an identity. -/
def find? (registry : MethodRegistry) (identity : MethodIdentity) : Option MethodId :=
  (registry.methods.findIdx? (fun method => method.identity == identity)).map MethodId.mk

/-- The identity of the method at a place; a place that holds none has the empty identity. -/
def identity (registry : MethodRegistry) (id : MethodId) : MethodIdentity :=
  ((registry.get? id).map Method.identity).getD ⟨"", "", none⟩

theorem not_mem_of_find? {registry : MethodRegistry} {identity : MethodIdentity}
    (absent : registry.find? identity = none) :
    identity ∉ registry.methods.map Method.identity := by
  simp only [find?, Option.map_eq_none_iff, List.findIdx?_eq_none_iff] at absent
  intro found
  obtain ⟨method, there, rfl⟩ := List.mem_map.mp found
  simpa using absent method there

/-- The registry with a method for an identity that it did not hold. -/
def add (registry : MethodRegistry) (identity : MethodIdentity)
    (absent : registry.find? identity = none) : MethodRegistry where
  methods := registry.methods ++ [{ identity }]
  distinct := by
    rw [List.map_append, List.nodup_append]
    refine ⟨registry.distinct, by simp, fun a found b last => ?_⟩
    have same : b = identity := by simpa using last
    subst same
    exact fun equal => not_mem_of_find? absent (equal ▸ found)

/-- The id of an identity, which is entered on first sight. -/
def intern (registry : MethodRegistry) (identity : MethodIdentity) : MethodId × MethodRegistry :=
  match absent : registry.find? identity with
  | some id => (id, registry)
  | none => (⟨registry.size⟩, registry.add identity absent)

theorem map_identity_modify (methods : List Method) (place : Nat) (change : Metadata → Metadata) :
    (methods.modify place fun method => { method with metadata := change method.metadata }).map
      Method.identity = methods.map Method.identity := by
  apply List.ext_getElem?
  intro other
  simp only [List.getElem?_map, List.getElem?_modify]
  split <;> cases methods[other]? <;> rfl

/-- The registry with the metadata of one method changed; identities stay as they are. -/
def modifyMetadata (registry : MethodRegistry) (id : MethodId) (change : Metadata → Metadata) :
    MethodRegistry where
  methods := registry.methods.modify id.index fun method =>
    { method with metadata := change method.metadata }
  distinct := by
    rw [map_identity_modify]
    exact registry.distinct

/-- Note an entry in the metadata of a method. -/
def setMetadata (registry : MethodRegistry) (id : MethodId) (key value : String) :
    MethodRegistry :=
  registry.modifyMetadata id (·.insert key value)

/-- Note the declared kind of a method. -/
def tagKind (registry : MethodRegistry) (id : MethodId) (kind : MethodKind) : MethodRegistry :=
  registry.setMetadata id Metadata.kindKey kind.text

end MethodRegistry

end ProgramModel
