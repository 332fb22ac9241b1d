/-
# ProgramModel.Yaml.Tag -- tags and the handles that shorten them

A tag names the type of a node.  It is written in full between angle brackets, or as
a handle and a suffix; a directive says what a handle stands for.  Tags are compared
as bytes, since a suffix may spell bytes by their hexadecimal codes.  A zero byte ends
what a text has to say: the rest of it has to be well formed and is dropped.
-/
import ProgramModel.Text.Utf8
import ProgramModel.Yaml.Scalar

namespace ProgramModel.Yaml

set_option autoImplicit false

/-- A tag as it is written.  A tag written in full has an empty handle. -/
structure TagName where
  handle : List Char
  suffix : List UInt8
  deriving DecidableEq, Repr

/-- What a handle stands for. -/
structure TagDirective where
  handle : List Char
  stem : List UInt8
  deriving DecidableEq, Repr

namespace TagName

def bytes (text : String) : List UInt8 := Text.encode text.toList

/-- What counts of a text: the bytes before the first zero. -/
def upToZero (text : List UInt8) : List UInt8 := text.takeWhile (· != 0)

/-- The handles that every document has. -/
def standard : List TagDirective := [⟨['!'], bytes "!"⟩, ⟨['!', '!'], bytes "tag:yaml.org,2002:"⟩]

/-- The full tag, if the handle is known. -/
def resolve? (tag : TagName) (directives : List TagDirective) : Option (List UInt8) :=
  if tag.handle.isEmpty then some tag.suffix
  else (directives.find? (fun directive => directive.handle == tag.handle)).map
    fun directive => directive.stem ++ tag.suffix

end TagName

/-! ## Scanning -/

/-- Whether a tag may hold the character; inside of angle brackets more may stand. -/
def isTagChar (isFull : Bool) (c : Char) : Bool :=
  isNameChar c || ";/?:@&=+$.%!~*'()".toList.contains c ||
    (isFull && (c == ',' || c == '[' || c == ']'))

/-- A byte spelt by its code. -/
def scanOctet : List Char → Option Nat
  | '%' :: high :: low :: _ => do return (← hexDigit? high) * 16 + (← hexDigit? low)
  | _ => none

/-- The number of bytes of a character that begins with a byte. -/
def octetCount? (lead : Nat) : Option Nat :=
  if lead < 0x80 then some 1
  else if 0xC0 ≤ lead ∧ lead < 0xE0 then some 2
  else if 0xE0 ≤ lead ∧ lead < 0xF0 then some 3
  else if 0xF0 ≤ lead ∧ lead < 0xF8 then some 4
  else none

/-- Bytes that continue a character, spelt by their codes. -/
def scanFurtherOctets : Nat → Cursor → Option (List UInt8 × Cursor)
  | 0, cursor => some ([], cursor)
  | count + 1, cursor => do
      let octet ← scanOctet cursor.rest
      guard (0x80 ≤ octet ∧ octet < 0xC0)
      let (others, cursor) ← scanFurtherOctets count (cursor.advance 3)
      return (octet.toUInt8 :: others, cursor)

/-- A character whose bytes are spelt by their codes. -/
def scanOctets (cursor : Cursor) : Option (List UInt8 × Cursor) := do
  let lead ← scanOctet cursor.rest
  let count ← octetCount? lead
  let (others, cursor) ← scanFurtherOctets (count - 1) (cursor.advance 3)
  return (lead.toUInt8 :: others, cursor)

/-- The characters of a tag from a place on; `text` is what comes before them. -/
def scanTagText (isFull : Bool) : Nat → List UInt8 → Cursor → Option (List UInt8 × Cursor)
  | 0, _, _ => none
  | fuel + 1, text, cursor =>
      match cursor.next? with
      | none => some (text, cursor)
      | some c =>
          if c = '%' then do
            let (octets, cursor) ← scanOctets cursor
            scanTagText isFull fuel (text ++ octets) cursor
          else if isTagChar isFull c then
            scanTagText isFull fuel (text ++ String.utf8EncodeChar c) (cursor.advance 1)
          else some (text, cursor)

/-- The text of a tag at a place.  At least one character has to stand there, even if nothing of it
counts. -/
def tagTextAt? (isFull : Bool) (cursor : Cursor) : Option (List UInt8 × Cursor) := do
  let (text, after) ← scanTagText isFull (cursor.rest.length + 1) [] cursor
  guard (text ≠ [])
  return (TagName.upToZero text, after)

/-- An exclamation mark, the name after it, and the exclamation mark that may end a handle. -/
def scanHandle (cursor : Cursor) : Option (List Char × Cursor) := do
  guard (cursor.next? = some '!')
  let (name, cursor) := (cursor.advance 1).span isNameChar
  if cursor.next? = some '!' then return ('!' :: name ++ ['!'], cursor.advance 1)
  else return ('!' :: name, cursor)

/-- Whether what looks like a handle ends as one. -/
def isHandle (text : List Char) : Bool := 2 ≤ text.length && text.getLast? == some '!'

/-- The tag at a place. -/
def scanTag (cursor : Cursor) : Option (TagName × Cursor) := do
  if cursor.rest[1]? = some '<' then
    let (suffix, after) ← tagTextAt? true (cursor.advance 2)
    guard (after.next? = some '>')
    return (⟨[], suffix⟩, after.advance 1)
  else
    let (handle, after) ← scanHandle cursor
    if isHandle handle then
      let (suffix, after) ← tagTextAt? false after
      return (⟨handle, suffix⟩, after)
    else
      let (text, after) ← scanTagText false (after.rest.length + 1)
        (Text.encode (handle.drop 1)) after
      let suffix := TagName.upToZero text
      return (if suffix = [] then ⟨[], TagName.bytes "!"⟩ else ⟨['!'], suffix⟩, after)

/-- The tag at a place, which a blank has to follow, or a comma in a flow collection. -/
def tagAt? (inFlow : Bool) (cursor : Cursor) : Option (TagName × Cursor) := do
  let (tag, after) ← scanTag cursor
  guard (endsWord after.next? ∨ (inFlow ∧ after.next? = some ','))
  return (tag, after)

/-! ## Directives -/

/-- A directive at the head of a document. -/
inductive Directive where
  | version (major minor : Nat)
  | tag (directive : TagDirective)
  deriving DecidableEq, Repr

/-- A number of at most nine digits. -/
def scanVersionNumber (cursor : Cursor) : Option (Nat × Cursor) := do
  let (digits, after) := cursor.span Char.isDigit
  guard (digits ≠ [] ∧ digits.length ≤ 9)
  return (digits.foldl (fun value c => value * 10 + (c.toNat - '0'.toNat)) 0, after)

def scanVersion (cursor : Cursor) : Option (Directive × Cursor) := do
  let (major, cursor) ← scanVersionNumber (cursor.skip isGap)
  guard (cursor.next? = some '.')
  let (minor, cursor) ← scanVersionNumber (cursor.advance 1)
  return (.version major minor, cursor)

def scanTagDirective (cursor : Cursor) : Option (Directive × Cursor) := do
  let (handle, cursor) ← scanHandle (cursor.skip isGap)
  guard (handle = ['!'] ∨ isHandle handle)
  guard (cursor.next?.any isGap)
  let (stem, cursor) ← tagTextAt? true (cursor.skip isGap)
  guard (endsWord cursor.next?)
  return (.tag ⟨handle, stem⟩, cursor)

/-- The directive whose percent sign stands at a place, to the end of its line. -/
def directiveAt? (cursor : Cursor) : Option (Directive × Cursor) := do
  let (name, cursor) := (cursor.advance 1).span isNameChar
  guard (endsWord cursor.next?)
  let (directive, cursor) ← match name with
    | ['Y', 'A', 'M', 'L'] => scanVersion cursor
    | ['T', 'A', 'G'] => scanTagDirective cursor
    | _ => none
  return (directive, ← cursor.finishLine?)

end ProgramModel.Yaml
