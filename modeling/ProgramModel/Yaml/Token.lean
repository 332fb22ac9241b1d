/-
# ProgramModel.Yaml.Token -- a YAML text as tokens

`tokens?` cuts a text into tokens.  Indentation becomes tokens too: a block begins
where a first entry stands further right than the block around it, and ends where a
token stands further left.  Whether a node is a key shows only at the colon after
it, so the scanner remembers where a key may have begun and enters the token for
the key there when the colon comes; the key has to be on one line and not long.
-/
import ProgramModel.Yaml.Tag

namespace ProgramModel.Yaml

set_option autoImplicit false

/-- One token of a YAML text. -/
inductive Token where
  | directive (directive : Directive)
  | documentStart
  | documentEnd
  | blockSequenceStart
  | blockMappingStart
  | blockEnd
  | flowSequenceStart
  | flowSequenceEnd
  | flowMappingStart
  | flowMappingEnd
  | blockEntry
  | flowEntry
  | key
  | value
  | alias (name : List Char)
  | anchor (name : List Char)
  | tag (tag : TagName)
  | scalar (style : ScalarStyle) (text : List Char)
  deriving DecidableEq, Repr

/-- A place where a key may have begun. -/
structure PossibleKey where
  /-- The number of tokens before it. -/
  place : Nat
  /-- Whether nothing but a key may stand there. -/
  isRequired : Bool
  index : Nat
  line : Nat
  column : Nat

/-- The scanner between two tokens. -/
structure Scanner where
  cursor : Cursor
  /-- The tokens so far, last first. -/
  tokens : List Token := []
  count : Nat := 0
  /-- The columns of the blocks that are open, innermost first. -/
  indents : List Nat := []
  /-- Whether a key may begin here. -/
  keyAllowed : Bool := true
  /-- Where a key may have begun, in the innermost flow collection and in what is around it. -/
  possibleKey : Option PossibleKey := none
  outerKeys : List (Option PossibleKey) := []

namespace Scanner

/-- Whether a flow collection is open. -/
def inFlow (scanner : Scanner) : Bool := !scanner.outerKeys.isEmpty

/-- The column of the innermost block. -/
def indent (scanner : Scanner) : Option Nat := scanner.indents.head?

/-! ## Tokens and blocks -/

/-- Add a token. -/
def push (scanner : Scanner) (token : Token) : Scanner :=
  { scanner with tokens := token :: scanner.tokens, count := scanner.count + 1 }

/-- Add a token that stands for characters at the front. -/
def take (scanner : Scanner) (token : Token) (size : Nat) : Scanner :=
  { scanner.push token with cursor := scanner.cursor.advance size }

/-- Enter a token before the one at a place. -/
def insert (scanner : Scanner) (place : Nat) (token : Token) : Scanner :=
  let later := scanner.count - place
  { scanner with
    tokens := scanner.tokens.take later ++ token :: scanner.tokens.drop later
    count := scanner.count + 1 }

/-- End the blocks that do not satisfy a condition on their column, innermost first.  In a flow
collection indentation does not count. -/
def unroll (scanner : Scanner) (stays : Nat → Bool) : Scanner :=
  if scanner.inFlow then scanner
  else
    let ended := (scanner.indents.takeWhile fun column => !stays column).length
    { scanner with
      tokens := List.replicate ended .blockEnd ++ scanner.tokens
      count := scanner.count + ended
      indents := scanner.indents.drop ended }

/-- Begin a block at a column, if it is further right than the innermost block.  The token goes
before the one at a place, or to the end. -/
def roll (scanner : Scanner) (column : Nat) (place : Option Nat) (token : Token) : Scanner :=
  if scanner.inFlow || scanner.indent.any (column ≤ ·) then scanner
  else
    let scanner := { scanner with indents := column :: scanner.indents }
    match place with
    | some place => scanner.insert place token
    | none => scanner.push token

/-! ## Keys -/

/-- Whether a key that may have begun can no longer be one. -/
def isStale (scanner : Scanner) (key : PossibleKey) : Bool :=
  key.line < scanner.cursor.line || key.index + 1024 < scanner.cursor.index

/-- Forget a place where a key may have begun, which is wrong where nothing else may stand. -/
def forget? : Option PossibleKey → Option (Option PossibleKey)
  | some key => if key.isRequired then none else some none
  | none => some none

/-- Forget the places that have become too far. -/
def expire? (scanner : Scanner) : Option Scanner := do
  let check (key : Option PossibleKey) : Option (Option PossibleKey) :=
    if key.any scanner.isStale then forget? key else some key
  return { scanner with
    possibleKey := ← check scanner.possibleKey
    outerKeys := ← scanner.outerKeys.mapM check }

/-- No key may have begun since the last token. -/
def dropKey? (scanner : Scanner) : Option Scanner := do
  return { scanner with possibleKey := ← forget? scanner.possibleKey }

/-- A key may begin here, if one is allowed. -/
def saveKey? (scanner : Scanner) : Option Scanner := do
  if scanner.keyAllowed then
    let scanner ← scanner.dropKey?
    let cursor := scanner.cursor
    return { scanner with
      possibleKey := some
        { place := scanner.count
          isRequired := !scanner.inFlow && scanner.indent == some cursor.column
          index := cursor.index, line := cursor.line, column := cursor.column } }
  else return scanner

/-- Whether a key may begin at the next token. -/
def allowKey (scanner : Scanner) (keyAllowed : Bool) : Scanner := { scanner with keyAllowed }

/-! ## The kinds of tokens -/

def fetchDirective (scanner : Scanner) : Option Scanner := do
  let scanner ← (scanner.unroll fun _ => false).dropKey?
  let (directive, cursor) ← directiveAt? scanner.cursor
  return { (scanner.push (.directive directive)).allowKey false with cursor }

/-- A marker between documents. -/
def fetchMarker (scanner : Scanner) (token : Token) : Option Scanner := do
  let scanner ← (scanner.unroll fun _ => false).dropKey?
  return (scanner.take token 3).allowKey false

def fetchFlowStart (scanner : Scanner) (token : Token) : Option Scanner := do
  let scanner ← scanner.saveKey?
  return { (scanner.take token 1).allowKey true with
    possibleKey := none
    outerKeys := scanner.possibleKey :: scanner.outerKeys }

def fetchFlowEnd (scanner : Scanner) (token : Token) : Option Scanner := do
  let scanner ← scanner.dropKey?
  let scanner := match scanner.outerKeys with
    | [] => scanner
    | key :: outer => { scanner with possibleKey := key, outerKeys := outer }
  return (scanner.take token 1).allowKey false

/-- The comma of a flow collection. -/
def fetchFlowEntry (scanner : Scanner) : Option Scanner := do
  return ((← scanner.dropKey?).take .flowEntry 1).allowKey true

/-- A mark that begins an entry of a block, where such an entry may begin. -/
def beginBlock? (scanner : Scanner) (token : Token) : Option Scanner :=
  if scanner.inFlow then some scanner
  else if scanner.keyAllowed then some (scanner.roll scanner.cursor.column none token)
  else none

/-- The dash of a block sequence. -/
def fetchBlockEntry (scanner : Scanner) : Option Scanner := do
  let scanner ← scanner.beginBlock? .blockSequenceStart
  return ((← scanner.dropKey?).take .blockEntry 1).allowKey true

/-- The question mark before a key. -/
def fetchKey (scanner : Scanner) : Option Scanner := do
  let scanner ← scanner.beginBlock? .blockMappingStart
  return ((← scanner.dropKey?).take .key 1).allowKey !scanner.inFlow

/-- The colon before a value. -/
def fetchValue (scanner : Scanner) : Option Scanner :=
  match scanner.possibleKey with
  | some key =>
      let scanner := (scanner.insert key.place .key).roll key.column (some key.place)
        .blockMappingStart
      some (({ scanner with possibleKey := none }.take .value 1).allowKey false)
  | none => do
      let scanner ← scanner.beginBlock? .blockMappingStart
      return (scanner.take .value 1).allowKey !scanner.inFlow

/-- The name of an anchor after its mark. -/
def anchorNameAt? (cursor : Cursor) : Option (List Char × Cursor) := do
  let (name, after) := (cursor.advance 1).span isNameChar
  guard (name ≠ [])
  guard (endsWord after.next? || after.next?.any "?:,]\x7d%@\x60".toList.contains)
  return (name, after)

/-- An anchor, or an alias for one. -/
def fetchAnchor (scanner : Scanner) (token : List Char → Token) : Option Scanner := do
  let scanner ← scanner.saveKey?
  let (name, cursor) ← anchorNameAt? scanner.cursor
  return { (scanner.push (token name)).allowKey false with cursor }

def fetchTag (scanner : Scanner) : Option Scanner := do
  let scanner ← scanner.saveKey?
  let (tag, cursor) ← tagAt? scanner.inFlow scanner.cursor
  return { (scanner.push (.tag tag)).allowKey false with cursor }

def fetchBlockScalar (scanner : Scanner) (isLiteral : Bool) : Option Scanner := do
  let scanner ← scanner.dropKey?
  let (text, cursor) ← blockAt? isLiteral scanner.indent scanner.cursor
  let style : ScalarStyle := if isLiteral then .literal else .folded
  return { (scanner.push (.scalar style text)).allowKey true with cursor }

/-- A quoted scalar. -/
def fetchQuoted (scanner : Scanner) (quote : Quote) : Option Scanner := do
  let scanner ← scanner.saveKey?
  let (text, cursor) ← quotedAt? quote scanner.cursor
  return { (scanner.push (.scalar .quoted text)).allowKey false with cursor }

/-- A plain scalar.  A key may follow it if it is followed by the end of a line. -/
def fetchPlain (scanner : Scanner) : Option Scanner := do
  let scanner ← scanner.saveKey?
  let found ← plainAt? scanner.inFlow ((scanner.indent.map (· + 1)).getD 0) scanner.cursor
  return { (scanner.push (.scalar .plain found.text)).allowKey found.isBroken with
    cursor := found.after }

/-- Whether a plain scalar begins with a character before another. -/
def beginsPlain (inFlow : Bool) (c : Char) (next? : Option Char) : Bool :=
  !(isGap c || isBreak c || "-?:,[]\x7b\x7d#&*!|>'\"%@\x60".toList.contains c) ||
    (c == '-' && !next?.any isGap) || (!inFlow && (c == '?' || c == ':') && !endsWord next?)

/-- The next token, which begins with a character. -/
def fetch (scanner : Scanner) (c : Char) : Option Scanner :=
  let cursor := scanner.cursor
  let next? := cursor.rest[1]?
  if cursor.column = 0 ∧ c = '%' then scanner.fetchDirective
  else if cursor.isAtMarker '-' then scanner.fetchMarker .documentStart
  else if cursor.isAtMarker '.' then scanner.fetchMarker .documentEnd
  else if c = '[' then scanner.fetchFlowStart .flowSequenceStart
  else if c = '\x7b' then scanner.fetchFlowStart .flowMappingStart
  else if c = ']' then scanner.fetchFlowEnd .flowSequenceEnd
  else if c = '\x7d' then scanner.fetchFlowEnd .flowMappingEnd
  else if c = ',' then scanner.fetchFlowEntry
  else if c = '-' ∧ endsWord next? then scanner.fetchBlockEntry
  else if c = '?' ∧ (scanner.inFlow || endsWord next?) then scanner.fetchKey
  else if c = ':' ∧ (scanner.inFlow || endsWord next?) then scanner.fetchValue
  else if c = '*' then scanner.fetchAnchor .alias
  else if c = '&' then scanner.fetchAnchor .anchor
  else if c = '!' then scanner.fetchTag
  else if c = '|' ∧ !scanner.inFlow then scanner.fetchBlockScalar true
  else if c = '>' ∧ !scanner.inFlow then scanner.fetchBlockScalar false
  else if c = '\'' then scanner.fetchQuoted .single
  else if c = '"' then scanner.fetchQuoted .double
  else if beginsPlain scanner.inFlow c next? then scanner.fetchPlain
  else none

/-- The scanner at the next token. -/
def approach? (scanner : Scanner) : Option Scanner := do
  let (keyAllowed, cursor) :=
    scanner.cursor.skipToToken scanner.inFlow (scanner.cursor.rest.length + 1) scanner.keyAllowed
  let scanner ← { scanner with keyAllowed, cursor }.expire?
  return scanner.unroll (· ≤ cursor.column)

/-- Scan at most `fuel` tokens. -/
def run : Nat → Scanner → Option (List Token)
  | 0, _ => none
  | fuel + 1, scanner => do
      let scanner ← scanner.approach?
      match scanner.cursor.next? with
      | none => return (← (scanner.unroll fun _ => false).dropKey?).tokens.reverse
      | some c => run fuel (← scanner.fetch c)

end Scanner

/-- The tokens of a text; each takes at least one character. -/
def tokens? (text : List Char) : Option (List Token) :=
  if text.all isAllowed then Scanner.run (text.length + 1) { cursor := { rest := text } } else none

end ProgramModel.Yaml
