/-
# ProgramModel.Yaml.Node -- a YAML document as a tree

A document is one node: a scalar, a sequence, a mapping, or an alias for a node that
has an anchor.  Where an entry has no node, an empty plain scalar stands.  Aliases
stay in the tree; what one stands for is looked up in the document.

An anchor's number is the count of names in use before it, which is how an alias
refers to it.  A name that is used again does not count again, so that two anchors
may come to have one number; then the one that begins later in the document counts.
-/
import ProgramModel.Sorted.Map
import ProgramModel.Yaml.Token

namespace ProgramModel.Yaml

set_option autoImplicit false

/-- A node of a document. -/
inductive Node where
  | scalar (style : ScalarStyle) (tag : Option (List UInt8)) (text : String)
  | sequence (items : List Node)
  | mapping (entries : List (Node × Node))
  /-- A reference to the node with an anchor of that number. -/
  | alias (number : Nat)
  deriving Inhabited

/-- The node that stands where there is none. -/
def Node.empty : Node := .scalar .plain none ""

/-- A node with an anchor. -/
structure Anchored where
  number : Nat
  /-- How many events of the document come before the node. -/
  start : Nat
  node : Node

structure Document where
  root : Node
  anchored : List Anchored := []
  /-- The number of events: one for a scalar or alias, two for a collection. -/
  events : Nat := 0

/-- The node that an anchor number stands for. -/
def Document.target? (document : Document) (number : Nat) : Option Node :=
  let found := document.anchored.foldl (fun (best : Option Anchored) next =>
    if next.number = number ∧ best.all (·.start < next.start) then some next else best) none
  found.map Anchored.node

/-! ## Composing -/

/-- What is left to compose, and what has been met. -/
structure Composer where
  tokens : List Token
  directives : List TagDirective := TagName.standard
  numbers : SortedMap String Nat := ∅
  anchored : List Anchored := []
  events : Nat := 0

/-- A step of composing, which fails if the tokens do not fit. -/
abbrev Compose := StateT Composer Option

namespace Compose

/-- The next token. -/
def peek : Compose (Option Token) := do return (← get).tokens.head?

/-- Pass over a token. -/
def drop : Compose Unit := modify fun composer => { composer with tokens := composer.tokens.tail }

/-- Pass over a token if it is the given one, and tell whether it was. -/
def dropIf (token : Token) : Compose Bool := do
  if (← peek) = some token then
    drop
    return true
  else return false

/-- Count an event. -/
def emit : Compose Unit := modify fun composer => { composer with events := composer.events + 1 }

def emptyScalar : Compose Node := do
  emit
  return .empty

/-- What stands before the content of a node. -/
structure Properties where
  anchor : Option (List Char) := none
  tag : Option TagName := none

/-- An anchor and a tag, in either order. -/
def properties : Compose Properties := do
  match ← peek with
  | some (.anchor name) =>
      drop
      match ← peek with
      | some (.tag tag) =>
          drop
          return ⟨some name, some tag⟩
      | _ => return ⟨some name, none⟩
  | some (.tag tag) =>
      drop
      match ← peek with
      | some (.anchor name) =>
          drop
          return ⟨some name, some tag⟩
      | _ => return ⟨none, some tag⟩
  | _ => return {}

/-- The full tag of a node; the bare `!` is a tag too. -/
def fullTag (tag : Option TagName) : Compose (Option (List UInt8)) :=
  match tag with
  | none => return none
  | some tag => do return some (← tag.resolve? (← get).directives)

/-- Give an anchor its number; the node begins at the next event. -/
def enterAnchor (anchor : Option (List Char)) : Compose (Option (Nat × Nat)) :=
  match anchor with
  | none => return none
  | some name => do
      let composer ← get
      let number := composer.numbers.size
      set { composer with numbers := composer.numbers.insert (String.ofList name) number }
      return some (number, composer.events)

def noteAnchor (place : Option (Nat × Nat)) (node : Node) : Compose Node :=
  match place with
  | none => return node
  | some (number, start) => do
      modify fun composer =>
        { composer with anchored := ⟨number, start, node⟩ :: composer.anchored }
      return node

/-- Whether one of some tokens comes next, or no more. -/
def isNext (among : List Token) : Compose Bool := do
  match ← peek with
  | some token => return among.contains token
  | none => return false

/-- Where a node stands. -/
inductive Position where
  /-- In a block, where only indented sequences begin. -/
  | block
  /-- In a block mapping, where the entries of a sequence need no indentation. -/
  | blockEntry
  /-- In a flow collection. -/
  | flow
  deriving DecidableEq

/-- A node without content. -/
def missing (tag : Option (List UInt8)) (mayBeEmpty : Bool) : Compose Node := do
  guard mayBeEmpty
  emit
  return .scalar .plain tag ""

/-- A node, or an empty scalar if one of some tokens comes next. -/
def unlessNext (among : List Token) (node : Compose Node) : Compose Node := do
  if ← isNext among then emptyScalar else node

/-- The value of an entry, or an empty scalar if none is written. -/
def valueUnless (among : List Token) (node : Compose Node) : Compose Node := do
  if ← dropIf .value then unlessNext among node else emptyScalar

/-- The comma before an item that is not the first. -/
def separator (isFirst : Bool) : Compose Unit := do
  if !isFirst then guard (← dropIf .flowEntry)

mutual

def node : Nat → Position → Compose Node
  | 0, _ => failure
  | fuel + 1, position => do
      if let some (.alias name) ← peek then
        drop
        let number ← (← get).numbers.get? (String.ofList name)
        emit
        return .alias number
      let found ← properties
      let tag ← fullTag found.tag
      let place ← enterAnchor found.anchor
      noteAnchor place (← content fuel position tag (found.anchor.isSome || found.tag.isSome))

/-- The content of a node, which may be missing after an anchor or a tag. -/
def content : Nat → Position → Option (List UInt8) → Bool → Compose Node
  | 0, _, _, _ => failure
  | fuel + 1, position, tag, mayBeEmpty => do
      match position, ← peek with
      | .blockEntry, some .blockEntry =>
          emit
          .sequence <$> plainItems fuel
      | _, some (.scalar style text) =>
          drop
          emit
          return .scalar style tag (String.ofList text)
      | _, some .flowSequenceStart =>
          drop
          emit
          .sequence <$> flowItems fuel true
      | _, some .flowMappingStart =>
          drop
          emit
          .mapping <$> flowEntries fuel true
      | .flow, _ => missing tag mayBeEmpty
      | _, some .blockSequenceStart =>
          drop
          emit
          .sequence <$> blockItems fuel
      | _, some .blockMappingStart =>
          drop
          emit
          .mapping <$> blockEntries fuel
      | _, _ => missing tag mayBeEmpty

def blockItems : Nat → Compose (List Node)
  | 0 => failure
  | fuel + 1 => do
      if ← dropIf .blockEntry then
        let item ← unlessNext [.blockEntry, .blockEnd] (node fuel .block)
        return item :: (← blockItems fuel)
      guard (← dropIf .blockEnd)
      emit
      return []

/-- The items of a sequence whose entries are not indented. -/
def plainItems : Nat → Compose (List Node)
  | 0 => failure
  | fuel + 1 => do
      if ← dropIf .blockEntry then
        let item ← unlessNext [.blockEntry, .key, .value, .blockEnd] (node fuel .block)
        return item :: (← plainItems fuel)
      emit
      return []

def blockEntries : Nat → Compose (List (Node × Node))
  | 0 => failure
  | fuel + 1 => do
      if ← dropIf .key then
        let key ← unlessNext [.key, .value, .blockEnd] (node fuel .blockEntry)
        let value ← valueUnless [.key, .value, .blockEnd] (node fuel .blockEntry)
        return (key, value) :: (← blockEntries fuel)
      guard (← dropIf .blockEnd)
      emit
      return []

/-- The items of a flow sequence.  An item with a key is a mapping of one entry. -/
def flowItems : Nat → Bool → Compose (List Node)
  | 0, _ => failure
  | fuel + 1, isFirst => do
      if ← dropIf .flowSequenceEnd then
        emit
        return []
      separator isFirst
      if ← dropIf .key then
        emit
        let key ←
          if ← isNext [.value, .flowEntry, .flowSequenceEnd] then
            drop
            emptyScalar
          else node fuel .flow
        let value ← valueUnless [.flowEntry, .flowSequenceEnd] (node fuel .flow)
        emit
        return .mapping [(key, value)] :: (← flowItems fuel false)
      if ← dropIf .flowSequenceEnd then
        emit
        return []
      let item ← node fuel .flow
      return item :: (← flowItems fuel false)

def flowEntries : Nat → Bool → Compose (List (Node × Node))
  | 0, _ => failure
  | fuel + 1, isFirst => do
      if ← dropIf .flowMappingEnd then
        emit
        return []
      separator isFirst
      if ← dropIf .key then
        let key ← unlessNext [.value, .flowEntry, .flowMappingEnd] (node fuel .flow)
        let value ← valueUnless [.flowEntry, .flowMappingEnd] (node fuel .flow)
        return (key, value) :: (← flowEntries fuel false)
      if ← dropIf .flowMappingEnd then
        emit
        return []
      let key ← node fuel .flow
      let value ← emptyScalar
      return (key, value) :: (← flowEntries fuel false)

end

/-! ## Documents -/

/-- Whether a version of YAML can be read. -/
def isKnownVersion (major minor : Nat) : Bool := major == 1 && (minor == 1 || minor == 2)

/-- The directives before a document: at most one version, and each handle at most once. -/
def directives : Nat → Bool → List TagDirective → Compose (Bool × List TagDirective)
  | 0, _, _ => failure
  | fuel + 1, hasVersion, handles => do
      match ← peek with
      | some (.directive (.version major minor)) =>
          drop
          guard (!hasVersion && isKnownVersion major minor)
          directives fuel true handles
      | some (.directive (.tag directive)) =>
          drop
          guard (handles.all (·.handle != directive.handle))
          directives fuel hasVersion (handles ++ [directive])
      | _ => return (hasVersion, handles)

/-- The root of a document. -/
def root (fuel : Nat) : Compose Node := do
  let (hasVersion, handles) ← directives fuel false []
  modify fun composer => { composer with directives := handles ++ TagName.standard }
  if ← dropIf .documentStart then
    match ← peek with
    | none => emptyScalar
    | some (.directive _) => emptyScalar
    | some .documentStart => emptyScalar
    | some .documentEnd => emptyScalar
    | some _ => node fuel .block
  else
    guard (!hasVersion && handles.isEmpty)
    match ← peek with
    | none => return .empty
    | some _ => node fuel .block

end Compose

/-- The document that tokens make up.  Nothing but markers for its end may follow it. -/
def Document.ofTokens? (tokens : List Token) : Option Document := do
  let (root, composer) ← (Compose.root (4 * tokens.length + 4)).run { tokens }
  guard (composer.tokens.all (· = .documentEnd))
  return { root, anchored := composer.anchored, events := composer.events }

def Document.ofText? (text : List Char) : Option Document := do
  Document.ofTokens? (← tokens? text)

end ProgramModel.Yaml
