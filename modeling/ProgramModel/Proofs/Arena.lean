/-
# ProgramModel.Proofs.Arena -- an arena does what a registry does

An arena `Represents` a registry when it holds the same methods, and its two maps have for
every identity the handle of its place, and nothing for an identity that has no place.  Every
request to the one, served by the other as well, keeps it so and is answered with the handle of
the id that the registry answers with (`Represents.intern`, `Represents.modifyMetadata`), and
then so does any list of requests (`run_represents`).

All this holds without a bound.  What needs one is that handles tell methods apart: they do so
up to 2 ^ 32 methods (`handles_identify`), and the method after those has the handle of the
first (`Represents.intern_full`).
-/
import ProgramModel.Method.Arena
import ProgramModel.Proofs.Interning

namespace ProgramModel

set_option autoImplicit false

/-! ## Handles and ids -/

namespace MethodHandle

/-- The handle of the method with an id. -/
def ofId (id : MethodId) : MethodHandle := ofPlace id.index

/-- The id of the method that a handle leads to. -/
def id (handle : MethodHandle) : MethodId := ⟨handle.index⟩

theorem index_ofPlace (place : Nat) : (ofPlace place).index = place % UInt32.size :=
  UInt32.toNat_ofNat'

/-- Below 2 ^ 32, an id can be had back from its handle. -/
theorem id_ofId {id : MethodId} (small : id.index < UInt32.size) : (ofId id).id = id := by
  unfold ofId MethodHandle.id
  rw [index_ofPlace, Nat.mod_eq_of_lt small]

/-- The places from 2 ^ 32 on have the handles of those from the first on. -/
theorem ofPlace_wraps (place : Nat) : ofPlace (UInt32.size + place) = ofPlace place := by
  have same : (ofPlace (UInt32.size + place)).index = (ofPlace place).index := by
    rw [index_ofPlace, index_ofPlace, Nat.add_mod_left]
  exact congrArg mk (UInt32.toNat_inj.mp same)

end MethodHandle

/-! ## Looking up in a registry -/

namespace MethodRegistry

variable {registry : MethodRegistry} {identity other : MethodIdentity}

/-- **Entering an identity changes no other look-up.** -/
theorem find?_intern (registry : MethodRegistry) (identity other : MethodIdentity) :
    (registry.intern identity).2.find? other =
      if identity = other then some (registry.intern identity).1 else registry.find? other := by
  split
  · rename_i same
    subst same
    exact find?_eq_some_iff.mpr (intern_denotes registry identity)
  · rename_i differs
    cases before : registry.find? other with
    | some id =>
        have denotes := find?_eq_some_iff.mp before
        exact find?_eq_some_iff.mpr (denotes.of_extends (intern_extends registry identity))
    | none =>
        rw [find?_eq_none_iff] at before ⊢
        rcases intern_cases registry identity with ⟨id, -, same⟩ | ⟨-, -, methods⟩
        · rw [same]
          exact before
        · simpa [identities, methods, eq_comm (a := other), differs] using before

theorem find?_modifyMetadata (registry : MethodRegistry) (id : MethodId)
    (change : Metadata → Metadata) (identity : MethodIdentity) :
    (registry.modifyMetadata id change).find? identity = registry.find? identity := by
  ext place
  simp only [find?_eq_some_iff, Denotes, identities_modifyMetadata]

end MethodRegistry

/-! ## Looking up in an arena -/

namespace MethodArena

/-- The handle under an identity's key, in the map that has such keys. -/
def handle? (arena : MethodArena) (identity : MethodIdentity) : Option MethodHandle :=
  match identity.artifact with
  | some artifact => arena.resolved[(identity.owner, identity.symbol, artifact)]?
  | none => arena.unresolved[(identity.owner, identity.symbol)]?

/-- The handle of a method with an identity, which is entered on first sight. -/
def intern (arena : MethodArena) (identity : MethodIdentity) : MethodHandle × MethodArena :=
  match identity.artifact with
  | some artifact => arena.findOrCreateResolved identity.owner identity.symbol artifact
  | none => arena.findOrCreateUnresolved identity.owner identity.symbol

section Keys

variable {κ : Type} [BEq κ] [Hashable κ] {known : Std.HashMap κ MethodHandle} {key : κ}
  {methods : Array Method} {method : Method}

theorem findOrPush_known {handle : MethodHandle} (found : known[key]? = some handle) :
    findOrPush known key methods method = (handle, known, methods) := by
  unfold findOrPush
  rw [found]

theorem findOrPush_new (absent : known[key]? = none) :
    findOrPush known key methods method =
      (.ofPlace methods.size, known.insert key (.ofPlace methods.size), methods.push method) := by
  unfold findOrPush
  rw [absent]

end Keys

variable {arena : MethodArena} {identity : MethodIdentity}

/-- A known identity is answered from its map. -/
theorem intern_known {handle : MethodHandle} (found : arena.handle? identity = some handle) :
    arena.intern identity = (handle, arena) := by
  obtain ⟨owner, symbol, _ | artifact⟩ := identity
  · simp only [intern, findOrCreateUnresolved, findOrPush_known found]
  · simp only [intern, findOrCreateResolved, findOrPush_known found]

/-- A new identity gets the handle of the next place, and the map that has its key gets that. -/
theorem intern_new (absent : arena.handle? identity = none) :
    (arena.intern identity).1 = .ofPlace arena.size ∧
      (arena.intern identity).2.methods = arena.methods.push { identity } ∧
      ∀ other, (arena.intern identity).2.handle? other =
        if identity = other then some (.ofPlace arena.size) else arena.handle? other := by
  obtain ⟨owner, symbol, _ | artifact⟩ := identity
  · simp only [intern, findOrCreateUnresolved, findOrPush_new absent]
    refine ⟨rfl, trivial, ?_⟩
    rintro ⟨owner', symbol', _ | artifact'⟩
    · simp [handle?, Std.HashMap.getElem?_insert, size]
    · simp [handle?]
  · simp only [intern, findOrCreateResolved, findOrPush_new absent]
    refine ⟨rfl, trivial, ?_⟩
    rintro ⟨owner', symbol', _ | artifact'⟩
    · simp [handle?]
    · simp [handle?, Std.HashMap.getElem?_insert, size]

/-! ## Arenas for registries -/

/-- The arena holds the methods of the registry, and its maps have the handles of their places. -/
structure Represents (arena : MethodArena) (registry : MethodRegistry) : Prop where
  methods : arena.methods.toList = registry.methods
  handles : ∀ identity, arena.handle? identity = (registry.find? identity).map .ofId

theorem represents_empty : Represents {} ∅ where
  methods := rfl
  handles := by
    rintro ⟨owner, symbol, _ | artifact⟩ <;> simp [handle?] <;> rfl

variable {registry : MethodRegistry}

theorem Represents.size_eq (represents : arena.Represents registry) :
    arena.size = registry.size := by
  rw [MethodRegistry.size, ← represents.methods]
  exact Array.length_toList.symm

theorem Represents.get?_eq (represents : arena.Represents registry) (handle : MethodHandle) :
    arena.get? handle = registry.get? handle.id := by
  rw [MethodRegistry.get?, ← represents.methods, Array.getElem?_toList]
  rfl

/-- **An arena enters what the registry enters**, and answers with the handle of its answer. -/
theorem Represents.intern (represents : arena.Represents registry) (identity : MethodIdentity) :
    (arena.intern identity).1 = .ofId (registry.intern identity).1 ∧
      (arena.intern identity).2.Represents (registry.intern identity).2 := by
  rcases MethodRegistry.intern_cases registry identity with
    ⟨id, denotes, same⟩ | ⟨absent, place, methods⟩
  · have found : arena.handle? identity = some (.ofId id) := by
      rw [represents.handles, MethodRegistry.find?_eq_some_iff.mpr denotes]
      rfl
    rw [intern_known found, same]
    exact ⟨rfl, represents⟩
  · have missing : arena.handle? identity = none := by
      rw [represents.handles, MethodRegistry.find?_eq_none_iff.mpr absent]
      rfl
    obtain ⟨handle, pushed, noted⟩ := intern_new missing
    have next : MethodHandle.ofPlace arena.size = .ofId (registry.intern identity).1 := by
      rw [place, represents.size_eq]
      rfl
    refine ⟨handle.trans next, ?_, ?_⟩
    · rw [pushed, methods, Array.toList_push, represents.methods]
    · intro other
      rw [noted, next, represents.handles, MethodRegistry.find?_intern]
      split <;> rfl

/-- The bound is sharp: with 2 ^ 32 methods in the arena, a new one gets the handle of the first. -/
theorem Represents.intern_full (represents : arena.Represents registry)
    (full : registry.size = UInt32.size) (new : identity ∉ registry.identities) :
    (arena.intern identity).1 = .ofPlace 0 := by
  rcases MethodRegistry.intern_cases registry identity with ⟨id, denotes, -⟩ | ⟨-, place, -⟩
  · exact absurd (List.mem_of_getElem? denotes) new
  · rw [(represents.intern identity).1, place, full]
    exact MethodHandle.ofPlace_wraps 0

/-- **An arena changes the metadata that the registry changes.** -/
theorem Represents.modifyMetadata (represents : arena.Represents registry) (handle : MethodHandle)
    (change : Metadata → Metadata) :
    (arena.modifyMetadata handle change).Represents
      (registry.modifyMetadata handle.id change) where
  methods := by
    rw [MethodArena.modifyMetadata, Array.toList_modify, represents.methods]
    rfl
  handles identity := by
    rw [MethodRegistry.find?_modifyMetadata, ← represents.handles]
    rfl

end MethodArena

/-! ## Requests to an arena -/

/-- What can be asked of an arena, which knows methods by their handles. -/
inductive HandleRequest where
  | find (inquiry : Inquiry)
  | tagKind (handle : MethodHandle) (kind : MethodKind)
  | editMetadata (handle : MethodHandle) (change : Metadata → Metadata)

/-- The request to a registry that says the same. -/
def HandleRequest.request : HandleRequest → Request
  | .find inquiry => .find inquiry
  | .tagKind handle kind => .tagKind handle.id kind
  | .editMetadata handle change => .editMetadata handle.id change

namespace MethodArena

/-- The handle that is asked for, and the arena that knows it. -/
def answer (arena : MethodArena) : Inquiry → MethodHandle × MethodArena
  | .resolved owner symbol artifact => arena.findOrCreateResolved owner symbol artifact
  | .unresolved owner symbol => arena.findOrCreateUnresolved owner symbol
  | .reference resolver method => arena.resolve resolver method

theorem answer_eq (arena : MethodArena) (inquiry : Inquiry) :
    arena.answer inquiry = arena.intern inquiry.identity := by
  cases inquiry <;> rfl

end MethodArena

/-- An arena and the handles that it has given out, each with what it was given out for. -/
structure ArenaSession where
  arena : MethodArena := {}
  answers : List (Inquiry × MethodHandle) := []

namespace ArenaSession

/-- The session after one more request. -/
def serve (session : ArenaSession) : HandleRequest → ArenaSession
  | .find inquiry =>
      let (handle, arena) := session.arena.answer inquiry
      ⟨arena, session.answers ++ [(inquiry, handle)]⟩
  | .tagKind handle kind => { session with arena := session.arena.tagKind handle kind }
  | .editMetadata handle change =>
      { session with arena := session.arena.modifyMetadata handle change }

/-- The session after a list of requests to an empty arena. -/
def run (requests : List HandleRequest) : ArenaSession := requests.foldl serve {}

/-- The arena represents the registry, and its answers are the handles of the registry's. -/
structure Represents (session : ArenaSession) (plain : Session) : Prop where
  arena : session.arena.Represents plain.registry
  answers : session.answers = plain.answers.map fun answer => (answer.inquiry, .ofId answer.id)

variable {session : ArenaSession} {plain : Session}

/-- **One request is served alike.** -/
theorem Represents.serve (represents : session.Represents plain) (request : HandleRequest) :
    (session.serve request).Represents (plain.serve request.request) := by
  cases request with
  | find inquiry =>
      have entered := represents.arena.intern inquiry.identity
      rw [← MethodArena.answer_eq, ← MethodRegistry.answer_eq] at entered
      refine ⟨entered.2, ?_⟩
      simp [ArenaSession.serve, HandleRequest.request, Session.serve, represents.answers, entered.1]
  | tagKind handle kind =>
      exact ⟨represents.arena.modifyMetadata handle (·.insert Metadata.kindKey kind.text),
        represents.answers⟩
  | editMetadata handle change =>
      exact ⟨represents.arena.modifyMetadata handle change, represents.answers⟩

/-- **Any requests are served alike**, in whatever order they come and however many methods there
are. -/
theorem run_represents (requests : List HandleRequest) :
    (run requests).Represents (Session.run (requests.map HandleRequest.request)) := by
  unfold run Session.run
  rw [List.foldl_map]
  exact List.foldl_rel ⟨MethodArena.represents_empty, rfl⟩
    fun request _ _ _ before => before.serve request

/-- **Up to 2 ^ 32 methods, a handle stands for the method that it was given out for.**  It leads to
that method, and two handles are equal exactly when what was asked for is the same. -/
theorem handles_identify (requests : List HandleRequest)
    (few : (run requests).arena.size ≤ UInt32.size) :
    (∀ answer ∈ (run requests).answers, ∃ method,
      (run requests).arena.get? answer.2 = some method ∧
        method.identity = answer.1.identity) ∧
    ∀ one ∈ (run requests).answers, ∀ other ∈ (run requests).answers,
      one.2 = other.2 ↔ one.1.identity = other.1.identity := by
  let plain := Session.run (requests.map HandleRequest.request)
  have represents : (run requests).Represents plain := run_represents requests
  have faithful : plain.Faithful := Session.faithful_run _
  have leads : ∀ answer ∈ plain.answers, (MethodHandle.ofId answer.id).id = answer.id := by
    intro answer given
    have inside : answer.id.index < plain.registry.size := by
      have denotes := faithful.denotes answer given
      simpa [MethodRegistry.identities, MethodRegistry.size] using
        (List.getElem?_eq_some_iff.mp denotes).1
    rw [represents.arena.size_eq] at few
    exact MethodHandle.id_ofId (inside.trans_le few)
  rw [represents.answers]
  simp only [List.forall_mem_map]
  constructor
  · intro answer given
    obtain ⟨method, there, same⟩ := MethodRegistry.denotes_iff.mp (faithful.denotes answer given)
    refine ⟨method, ?_, same⟩
    rw [represents.arena.get?_eq, leads answer given]
    exact there
  · intro one given other given'
    refine Iff.trans ?_ (faithful.id_eq_iff given given')
    constructor
    · intro same
      have ids := congrArg MethodHandle.id same
      rwa [leads one given, leads other given'] at ids
    · exact congrArg MethodHandle.ofId

end ArenaSession

end ProgramModel
