/-
# ProgramModel.Schema.Yaml -- documents of a schema as YAML

A text is any scalar, whatever it looks like; a flag is one of six plain words.  An
empty plain scalar counts as nothing where something may be absent, and as an empty
sequence, table or record.  A record is always a mapping; entries nobody knows are
passed over, with the aliases in them.

Aliases are followed where a value is needed.  How often that may happen is bounded by
the size of the document, so that a short text cannot stand for a huge value.
-/
import ProgramModel.Schema.Basic
import ProgramModel.Yaml.Node

namespace ProgramModel

set_option autoImplicit false

namespace Yaml

/-- Reading from a document; the state is how many more aliases may be followed. -/
abbrev Reader := StateT Nat Option

/-- The number of aliases that may be followed in a document. -/
def Document.aliasLimit (document : Document) : Nat := 100 * document.events

/-- The node itself, or the one that an alias stands for. -/
def follow (document : Document) : Node → Reader Node
  | .alias number => do
      let left ← get
      guard (left ≠ 0)
      set (left - 1)
      document.target? number
  | node => return node

/-- The words for no value. -/
def isNullWord (text : String) : Bool := ["null", "Null", "NULL", "~"].contains text

/-- The flag that a word is. -/
def flag? (text : String) : Option Bool :=
  if ["true", "True", "TRUE"].contains text then some true
  else if ["false", "False", "FALSE"].contains text then some false
  else none

def flagTag : List UInt8 := TagName.bytes "tag:yaml.org,2002:bool"

/-- The tag of no value. -/
def nullTag : List UInt8 := TagName.bytes "tag:yaml.org,2002:null"

namespace Node

/-- Whether the node is what stands where there is none. -/
def isBlank : Node → Bool
  | .scalar .plain _ text => text.isEmpty
  | _ => false

/-- The text of a scalar. -/
def text? : Node → Option String
  | .scalar _ _ text => some text
  | _ => none

/-- The flag of a plain scalar, or of a literal one that is tagged as a flag. -/
def flag? : Node → Option Bool
  | .scalar .plain _ text => Yaml.flag? text
  | .scalar .literal (some tag) text => if tag = flagTag then Yaml.flag? text else none
  | _ => none

/-- Whether a node that may be absent is; a node tagged as no value may not be anything else. -/
def isAbsent? : Node → Option Bool
  | .scalar .plain none text => some (text.isEmpty || isNullWord text)
  | .scalar .plain (some tag) text =>
      if tag = nullTag then if isNullWord text then some true else none else some false
  | _ => some false

/-- The items of a sequence. -/
def items? : Node → Option (List Node)
  | .sequence items => some items
  | node => if node.isBlank then some [] else none

/-- The entries of a mapping. -/
def entries? : Node → Option (List (Node × Node))
  | .mapping entries => some entries
  | node => if node.isBlank then some [] else none

end Node

def readText (document : Document) (node : Node) : Reader String := do
  (← follow document node).text?

end Yaml

open Yaml (Node Reader follow)

mutual

def Schema.readYaml (document : Yaml.Document) : (schema : Schema) → Node → Reader schema.Value
  | .text, node => Yaml.readText document node
  | .flag, node => do (← follow document node).flag?
  | .label names, node => do names.finIdxOf? (← Yaml.readText document node)
  | .optional inner, node => do
      let node ← follow document node
      if ← node.isAbsent? then return none
      return some (← inner.readYaml document node)
  | .sequence item, node => do
      (← (← follow document node).items?).mapM fun node => item.readYaml document node
  | .table, node => do
      (← (← follow document node).entries?).mapM fun (key, value) => do
        return (← Yaml.readText document key, ← Yaml.readText document value)
  | .record _ fields, node => do
      let entries ← (← follow document node).entries?
      let slots ← entries.foldlM (fun slots (key, value) => do
        (fields.readYamlField document (← Yaml.readText document key) slots value).getD
          (return slots)) fields.vacant
      (fields.assemble slots).toOption

/-- Enter the field with a key, if there is one. -/
def Fields.readYamlField (document : Yaml.Document) : (fields : Fields) → String → fields.Slots →
    Node → Option (Reader fields.Slots)
  | .nil, _, _, _ => none
  | .cons key schema _ rest, found, (slot, slots), node =>
      if found = key then
        some do
          guard slot.isNone
          return (some (← schema.readYaml document node), slots)
      else
        (rest.readYamlField document found slots node).map fun read =>
          return (slot, ← read)

end

/-- Read a whole document. -/
def Schema.ofYaml (schema : Schema) (text : List Char) : Option schema.Value := do
  let document ← Yaml.Document.ofText? text
  return (← (schema.readYaml document document.root).run document.aliasLimit).1

end ProgramModel
