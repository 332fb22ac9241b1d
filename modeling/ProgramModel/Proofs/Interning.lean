/-
# ProgramModel.Proofs.Interning -- any requests to a registry, in any order

A `Session` is a registry that starts empty together with the answers that it has given.
It serves inquiries for methods and changes of metadata, in whatever order they come
(`Session.run`).  It is `Faithful` when every id that it gave out denotes what was asked for
and the methods are the identities asked for, in the order of first sight; one request
keeps it faithful (`Faithful.serve`), hence so does any list of them.

So ids and identities determine each other however far apart the inquiries are
(`run_identifies`).  A method keeps its place and its identity, and its metadata is what
the requests addressed to its id have made of it, one after another
(`get?_foldl_serve`).
-/
import Mathlib.Data.Finset.Card
import ProgramModel.Proofs.Registry

namespace ProgramModel

set_option autoImplicit false

/-! ## Requests and answers -/

/-- The question for the id of a method, which is named outright or by a reference. -/
inductive Inquiry where
  | resolved (owner symbol artifact : String)
  | unresolved (owner symbol : String)
  | reference (resolver : ArtifactResolver) (method : MethodReference)

/-- What the method asked for is known by. -/
def Inquiry.identity : Inquiry → MethodIdentity
  | .resolved owner symbol artifact => ⟨owner, symbol, some artifact⟩
  | .unresolved owner symbol => ⟨owner, symbol, none⟩
  | .reference resolver method => resolver.identify method

/-- What can be asked of a registry. -/
inductive Request where
  | find (inquiry : Inquiry)
  | tagKind (id : MethodId) (kind : MethodKind)
  | editMetadata (id : MethodId) (change : Metadata → Metadata)

/-- What a request does to the metadata of the method at a place: nothing, unless it is addressed
to that place. -/
def Request.effect (place : MethodId) : Request → Metadata → Metadata
  | .find _, metadata => metadata
  | .tagKind id kind, metadata =>
      if id = place then metadata.insert Metadata.kindKey kind.text else metadata
  | .editMetadata id change, metadata => if id = place then change metadata else metadata

/-- The metadata that requests make of the metadata of the method at a place. -/
def metadataAfter (place : MethodId) (requests : List Request) (metadata : Metadata) : Metadata :=
  requests.foldl (fun metadata request => request.effect place metadata) metadata

namespace MethodRegistry

/-- The id that is asked for, and the registry that knows it. -/
def answer (registry : MethodRegistry) : Inquiry → MethodId × MethodRegistry
  | .resolved owner symbol artifact => registry.intern ⟨owner, symbol, some artifact⟩
  | .unresolved owner symbol => registry.intern ⟨owner, symbol, none⟩
  | .reference resolver method => resolver.resolve registry method

/-- However a method is named, it is entered by what it is known by. -/
theorem answer_eq (registry : MethodRegistry) (inquiry : Inquiry) :
    registry.answer inquiry = registry.intern inquiry.identity := by
  cases inquiry <;> rfl

end MethodRegistry

/-- An inquiry with the id that was given out for it. -/
structure Answer where
  inquiry : Inquiry
  id : MethodId

def Answer.identity (answer : Answer) : MethodIdentity := answer.inquiry.identity

/-- A registry and the answers that it has given, in their order. -/
structure Session where
  registry : MethodRegistry := ∅
  answers : List Answer := []

namespace Session

open MethodRegistry

/-- The session after one more request. -/
def serve (session : Session) : Request → Session
  | .find inquiry =>
      let (id, registry) := session.registry.answer inquiry
      ⟨registry, session.answers ++ [⟨inquiry, id⟩]⟩
  | .tagKind id kind => { session with registry := session.registry.tagKind id kind }
  | .editMetadata id change =>
      { session with registry := session.registry.modifyMetadata id change }

/-- The session after a list of requests to an empty registry. -/
def run (requests : List Request) : Session := requests.foldl serve {}

theorem run_append (before after : List Request) :
    run (before ++ after) = after.foldl serve (run before) :=
  List.foldl_append

/-- What has been asked for so far, in the order of the inquiries. -/
def asked (session : Session) : List MethodIdentity := session.answers.map Answer.identity

/-! ## Ids and identities -/

/-- Every id given out denotes what was asked for, and the methods are what was asked for, in the
order of first sight. -/
structure Faithful (session : Session) : Prop where
  denotes : ∀ answer ∈ session.answers, session.registry.Denotes answer.id answer.identity
  firstSight : session.registry.identities = session.asked.eraseDups

theorem faithful_empty : Faithful {} where
  denotes answer there := by cases there
  firstSight := rfl

theorem eraseDups_concat {keys : List MethodIdentity} {key : MethodIdentity} :
    (keys ++ [key]).eraseDups = if key ∈ keys then keys.eraseDups else keys.eraseDups ++ [key] := by
  rw [List.eraseDups_append]
  split <;> rename_i known <;> simp [List.removeAll, List.eraseDups_cons, known]

variable {session : Session}

theorem Faithful.mem_identities_iff (faithful : session.Faithful) {identity : MethodIdentity} :
    identity ∈ session.registry.identities ↔ identity ∈ session.asked := by
  rw [faithful.firstSight, List.mem_eraseDups]

/-- An inquiry for something known finds its id; any other one gets the next place. -/
theorem Faithful.find (faithful : session.Faithful) (inquiry : Inquiry) :
    (session.serve (.find inquiry)).Faithful where
  denotes := by
    have grown := intern_extends session.registry inquiry.identity
    simp only [serve, answer_eq, List.mem_append, List.mem_singleton]
    rintro answer (earlier | rfl)
    · exact (faithful.denotes answer earlier).of_extends grown
    · exact intern_denotes session.registry inquiry.identity
  firstSight := by
    have asked : (session.serve (.find inquiry)).asked = session.asked ++ [inquiry.identity] := by
      simp [Session.asked, serve, Answer.identity]
    rw [asked, eraseDups_concat, ← faithful.firstSight]
    simp only [serve, answer_eq]
    rcases intern_cases session.registry inquiry.identity with
      ⟨id, denotes, same⟩ | ⟨absent, -, methods⟩
    · rw [same, if_pos (faithful.mem_identities_iff.mp (List.mem_of_getElem? denotes))]
    · rw [if_neg (mt faithful.mem_identities_iff.mpr absent)]
      simp [identities, methods]

/-- Metadata plays no part in what ids denote. -/
theorem Faithful.modifyMetadata (faithful : session.Faithful) (id : MethodId)
    (change : Metadata → Metadata) :
    Faithful { session with registry := session.registry.modifyMetadata id change } where
  denotes answer there :=
    (faithful.denotes answer there).of_extends (modifyMetadata_extends session.registry id change)
  firstSight := (identities_modifyMetadata session.registry id change).trans faithful.firstSight

/-- **One request keeps a session faithful.** -/
theorem Faithful.serve (faithful : session.Faithful) (request : Request) :
    (session.serve request).Faithful := by
  cases request with
  | find inquiry => exact faithful.find inquiry
  | tagKind id kind => exact faithful.modifyMetadata id (·.insert Metadata.kindKey kind.text)
  | editMetadata id change => exact faithful.modifyMetadata id change

theorem Faithful.foldl_serve (faithful : session.Faithful) (requests : List Request) :
    (requests.foldl Session.serve session).Faithful := by
  induction requests generalizing session with
  | nil => exact faithful
  | cons request rest ih => exact ih (faithful.serve request)

theorem faithful_run (requests : List Request) : (run requests).Faithful :=
  faithful_empty.foldl_serve requests

/-- Two answers name one place exactly when they are about one method. -/
theorem Faithful.id_eq_iff (faithful : session.Faithful) {one other : Answer}
    (there : one ∈ session.answers) (also : other ∈ session.answers) :
    one.id = other.id ↔ one.identity = other.identity := by
  have first := faithful.denotes one there
  have second := faithful.denotes other also
  constructor
  · intro same
    rw [same] at first
    exact first.identity_unique second
  · intro same
    rw [same] at first
    exact first.id_unique second

/-- There are as many methods as different things have been asked for. -/
theorem Faithful.size_eq (faithful : session.Faithful) :
    session.registry.size = session.asked.toFinset.card := by
  have members : session.registry.identities.toFinset = session.asked.toFinset := by
    ext identity
    simp only [List.mem_toFinset, faithful.mem_identities_iff]
  calc session.registry.size
      = session.registry.identities.length := by simp [size, identities]
    _ = session.registry.identities.toFinset.card :=
        (List.toFinset_card_of_nodup session.registry.distinct).symm
    _ = session.asked.toFinset.card := by rw [members]

/-! ## What lasts -/

theorem answers_serve (session : Session) (request : Request) :
    session.answers <+: (session.serve request).answers := by
  cases request with
  | find inquiry => exact List.prefix_append _ _
  | tagKind id kind => exact List.prefix_rfl
  | editMetadata id change => exact List.prefix_rfl

/-- An answer that was given stays on the record. -/
theorem answers_foldl_serve (session : Session) (requests : List Request) :
    session.answers <+: (requests.foldl serve session).answers := by
  induction requests generalizing session with
  | nil => exact List.prefix_rfl
  | cons request rest ih => exact (answers_serve session request).trans (ih _)

theorem mem_answers_run {before : List Request} {answer : Answer}
    (given : answer ∈ (run before).answers) (after : List Request) :
    answer ∈ (run (before ++ after)).answers := by
  rw [run_append]
  exact (answers_foldl_serve (run before) after).subset given

end Session

namespace MethodRegistry

variable {registry : MethodRegistry} {place : MethodId} {method : Method}

theorem get?_intern (there : registry.get? place = some method) (identity : MethodIdentity) :
    (registry.intern identity).2.get? place = some method :=
  (intern_appends registry identity).get?_kept there

/-- Changing metadata changes that of the method at the id, and of no other. -/
theorem get?_modifyMetadata (there : registry.get? place = some method) (id : MethodId)
    (change : Metadata → Metadata) :
    (registry.modifyMetadata id change).get? place =
      some { method with
        metadata := if id = place then change method.metadata else method.metadata } := by
  have at_place : registry.methods[place.index]? = some method := there
  unfold get? modifyMetadata
  rw [List.getElem?_modify, at_place]
  by_cases same : id = place
  · subst same
    simp
  · have differs : id.index ≠ place.index := by
      intro equal
      cases id; cases place; cases equal
      exact same rfl
    simp [same, differs]

end MethodRegistry

namespace Session

open MethodRegistry

variable {session : Session} {place : MethodId} {method : Method}

theorem get?_serve (there : session.registry.get? place = some method) (request : Request) :
    (session.serve request).registry.get? place =
      some { method with metadata := request.effect place method.metadata } := by
  cases request with
  | find inquiry =>
      simp only [serve, answer_eq]
      exact get?_intern there inquiry.identity
  | tagKind id kind =>
      exact get?_modifyMetadata there id (·.insert Metadata.kindKey kind.text)
  | editMetadata id change => exact get?_modifyMetadata there id change

/-- **A method stays at its place, and its metadata is what the requests addressed to that place
make of it.** -/
theorem get?_foldl_serve (there : session.registry.get? place = some method)
    (requests : List Request) :
    (requests.foldl serve session).registry.get? place =
      some { method with metadata := metadataAfter place requests method.metadata } := by
  induction requests generalizing session method with
  | nil => exact there
  | cons request rest ih => exact ih (get?_serve there request)

theorem get?_run {before : List Request} (there : (run before).registry.get? place = some method)
    (after : List Request) :
    (run (before ++ after)).registry.get? place =
      some { method with metadata := metadataAfter place after method.metadata } := by
  rw [run_append]
  exact get?_foldl_serve there after

/-- A method that is asked for the first time has no metadata. -/
theorem get?_find_of_not_asked (faithful : session.Faithful) {inquiry : Inquiry}
    (new : inquiry.identity ∉ session.asked) :
    (session.serve (.find inquiry)).registry.get? (session.registry.answer inquiry).1 =
      some ⟨inquiry.identity, ∅⟩ := by
  have absent : inquiry.identity ∉ session.registry.identities :=
    mt faithful.mem_identities_iff.mp new
  simp only [serve, answer_eq]
  rcases intern_cases session.registry inquiry.identity with
    ⟨id, denotes, -⟩ | ⟨-, place, methods⟩
  · exact absurd (List.mem_of_getElem? denotes) absent
  · rw [place, get?, methods]
    simp [size]

/-- So in the end it has what the requests since then have made of no metadata. -/
theorem get?_run_of_not_asked (before : List Request) {inquiry : Inquiry} (after : List Request)
    (new : inquiry.identity ∉ (run before).asked) :
    ∃ id, ⟨inquiry, id⟩ ∈ (run (before ++ .find inquiry :: after)).answers ∧
      (run (before ++ .find inquiry :: after)).registry.get? id =
        some ⟨inquiry.identity, metadataAfter id after ∅⟩ := by
  have entered := get?_find_of_not_asked (faithful_run before) new
  have recorded := (answers_foldl_serve ((run before).serve (.find inquiry)) after).subset
    (List.mem_append_right _ List.mem_cons_self)
  rw [run_append]
  exact ⟨_, recorded, get?_foldl_serve entered after⟩

end Session

/-- **Ids and identities determine each other, however far apart the inquiries are.**  At every
moment the ids given out so far denote what was asked for; the methods are what was asked for,
numbered in the order of first sight; and a method that is there stays as it is but for the changes
of metadata addressed to it.  So two references have one id exactly when they agree in the declaring
type, the selector and the attribution. -/
theorem run_identifies (requests : List Request) :
    let session := Session.run requests
    (∀ one ∈ session.answers, ∀ other ∈ session.answers,
      one.id = other.id ↔ one.identity = other.identity) ∧
    (∀ before after, requests = before ++ after → ∀ answer ∈ (Session.run before).answers,
      answer ∈ session.answers ∧
      (Session.run before).registry.Denotes answer.id answer.identity ∧
      session.registry.Denotes answer.id answer.identity) ∧
    session.registry.size = session.asked.toFinset.card ∧
    session.registry.identities = session.asked.eraseDups ∧
    (∀ answer ∈ session.answers, answer.id.index < session.registry.size ∧
      session.asked.eraseDups[answer.id.index]? = some answer.identity) ∧
    (∀ before after, requests = before ++ after → ∀ id method,
      (Session.run before).registry.get? id = some method →
      session.registry.get? id =
        some { method with metadata := metadataAfter id after method.metadata }) ∧
    (∀ before inquiry after, requests = before ++ .find inquiry :: after →
      inquiry.identity ∉ (Session.run before).asked →
      ∃ id, ⟨inquiry, id⟩ ∈ session.answers ∧
        session.registry.get? id = some ⟨inquiry.identity, metadataAfter id after ∅⟩) ∧
    (∀ resolver method id resolver' method' id',
      ⟨.reference resolver method, id⟩ ∈ session.answers →
      ⟨.reference resolver' method', id'⟩ ∈ session.answers →
      (id = id' ↔ method.owner = method'.owner ∧ method.selector = method'.selector ∧
        resolver.artifactOf method = resolver'.artifactOf method')) := by
  intro session
  have faithful : session.Faithful := Session.faithful_run requests
  refine ⟨fun one there other also => faithful.id_eq_iff there also, ?_, faithful.size_eq,
    faithful.firstSight, ?_, ?_, ?_, ?_⟩
  · rintro before after rfl answer given
    have lasts := Session.mem_answers_run given after
    exact ⟨lasts, (Session.faithful_run before).denotes answer given,
      faithful.denotes answer lasts⟩
  · intro answer given
    have denotes := faithful.denotes answer given
    have inside := (List.getElem?_eq_some_iff.mp denotes).1
    refine ⟨by simpa [MethodRegistry.identities, MethodRegistry.size] using inside, ?_⟩
    rw [← faithful.firstSight]
    exact denotes
  · rintro before after rfl id method there
    exact Session.get?_run there after
  · rintro before inquiry after rfl new
    exact Session.get?_run_of_not_asked before after new
  · intro resolver method id resolver' method' id' given given'
    refine (faithful.id_eq_iff given given').trans ?_
    simp only [Answer.identity, Inquiry.identity, ArtifactResolver.identify,
      MethodIdentity.mk.injEq]

/-- With and without an artifact, one name is two methods; asked for again it is the same one. -/
example :
    (Session.run [.find (.unresolved "A" "m()V"), .find (.resolved "A" "m()V" "g:a:1"),
        .tagKind ⟨0⟩ .abstract, .find (.unresolved "A" "m()V")]).answers.map Answer.id =
      [⟨0⟩, ⟨1⟩, ⟨0⟩] := by
  decide

end ProgramModel
