/-
# ProgramModel.Method.Arena -- the store behind a registry

Methods lie in an array, in the order of first sight, and two maps tell where: one by
declaring type, symbol and artifact, for methods that are attributed to an artifact, and one
by declaring type and symbol, for those that are not.  So a method is found without a search.

A handle is a method's place in 32 bits.  Nothing keeps an arena from growing beyond 2 ^ 32
methods; from there on the handle of a new method is that of an old one.
-/
import Mathlib.Data.List.Nodup
import ProgramModel.Attribution

namespace ProgramModel

set_option autoImplicit false

/-- A method's place in its arena, in 32 bits. -/
structure MethodHandle where
  word : UInt32
  deriving DecidableEq, Repr, Inhabited

namespace MethodHandle

/-- The handle of a place, which is the place itself below 2 ^ 32. -/
def ofPlace (place : Nat) : MethodHandle := ⟨UInt32.ofNat place⟩

def index (handle : MethodHandle) : Nat := handle.word.toNat

end MethodHandle

/-- The methods of one build, and where each of them lies. -/
structure MethodArena where
  methods : Array Method := #[]
  resolved : Std.HashMap (String × String × String) MethodHandle := ∅
  unresolved : Std.HashMap (String × String) MethodHandle := ∅

namespace MethodArena

/-! ## Finding a method, or entering it -/

/-- The handle under a key; a key that the map does not know gets that of a new method, put at the
end of the others. -/
def findOrPush {κ : Type} [BEq κ] [Hashable κ] (known : Std.HashMap κ MethodHandle) (key : κ)
    (methods : Array Method) (method : Method) :
    MethodHandle × Std.HashMap κ MethodHandle × Array Method :=
  match known[key]? with
  | some handle => (handle, known, methods)
  | none =>
      let handle := .ofPlace methods.size
      (handle, known.insert key handle, methods.push method)

/-- The handle of a method of an artifact, which is entered on first sight. -/
def findOrCreateResolved (arena : MethodArena) (owner symbol artifact : String) :
    MethodHandle × MethodArena :=
  let (handle, resolved, methods) :=
    findOrPush arena.resolved (owner, symbol, artifact) arena.methods
      { identity := ⟨owner, symbol, some artifact⟩ }
  (handle, { arena with resolved, methods })

/-- The handle of a method without an artifact, which is entered on first sight. -/
def findOrCreateUnresolved (arena : MethodArena) (owner symbol : String) :
    MethodHandle × MethodArena :=
  let (handle, unresolved, methods) :=
    findOrPush arena.unresolved (owner, symbol) arena.methods
      { identity := ⟨owner, symbol, none⟩ }
  (handle, { arena with unresolved, methods })

/-- The handle of the method that a reference means under a resolver. -/
def resolve (arena : MethodArena) (resolver : ArtifactResolver) (method : MethodReference) :
    MethodHandle × MethodArena :=
  match resolver.artifactOf method with
  | some artifact => arena.findOrCreateResolved method.owner method.selector artifact
  | none => arena.findOrCreateUnresolved method.owner method.selector

/-! ## Methods by their handles -/

def size (arena : MethodArena) : Nat := arena.methods.size

def get? (arena : MethodArena) (handle : MethodHandle) : Option Method :=
  arena.methods[handle.index]?

/-- The arena with the metadata of one method changed, if the handle leads to one. -/
def modifyMetadata (arena : MethodArena) (handle : MethodHandle) (change : Metadata → Metadata) :
    MethodArena :=
  { arena with
    methods := arena.methods.modify handle.index fun method =>
      { method with metadata := change method.metadata } }

/-- Note the declared kind of a method. -/
def tagKind (arena : MethodArena) (handle : MethodHandle) (kind : MethodKind) : MethodArena :=
  arena.modifyMetadata handle (·.insert Metadata.kindKey kind.text)

end MethodArena

end ProgramModel
