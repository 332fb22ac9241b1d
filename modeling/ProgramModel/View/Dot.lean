/-
# ProgramModel.View.Dot -- graphs in the DOT language

A graph has a name and a list of statements, each on a line of its own.  Ids,
names and the values of attributes are quoted, where only the quote and the
backslash are escaped; line breaks stand as they are.  Keys of attributes are
written bare.
-/
namespace ProgramModel.Dot

set_option autoImplicit false

/-- A named property of a vertex or an edge. -/
structure Attribute where
  key : String
  value : String
  deriving DecidableEq, Repr, Inhabited

/-- One statement of a graph. -/
inductive Statement where
  | vertex (id : String) (attributes : List Attribute)
  | edge (source target : String) (attributes : List Attribute)
  deriving DecidableEq, Repr, Inhabited

/-- A directed graph. -/
structure Graph where
  name : String
  statements : List Statement
  deriving DecidableEq, Repr, Inhabited

/-! ## Text -/

/-- The text with every occurrence of a character replaced. -/
def replace (c : Char) (replacement text : List Char) : List Char :=
  text.flatMap fun d => if d = c then replacement else [d]

/-- The text between quotes.  Backslashes are escaped first, so that those which escape a quote are
not escaped in turn. -/
def quoted (text : String) : List Char :=
  '"' :: replace '"' ['\\', '"'] (replace '\\' ['\\', '\\'] text.toList) ++ ['"']

def Attribute.chars (item : Attribute) : List Char :=
  item.key.toList ++ '=' :: quoted item.value

/-- Attributes, from the second on, each after a comma. -/
def furtherAttributes (attributes : List Attribute) : List Char :=
  attributes.flatMap fun item => ", ".toList ++ item.chars

/-- A list of attributes between brackets. -/
def attributeList : List Attribute → List Char
  | [] => ['[', ']']
  | first :: others => '[' :: first.chars ++ furtherAttributes others ++ [']']

/-- What a statement speaks of. -/
def Statement.subject : Statement → List Char
  | .vertex id _ => quoted id
  | .edge source target _ => quoted source ++ " -> ".toList ++ quoted target

def Statement.attributes : Statement → List Attribute
  | .vertex _ attributes => attributes
  | .edge _ _ attributes => attributes

def Statement.line (statement : Statement) : List Char :=
  "  ".toList ++ statement.subject ++ ' ' :: attributeList statement.attributes ++ [';', '\n']

def Graph.opening (graph : Graph) : List Char :=
  "digraph ".toList ++ quoted graph.name ++ [' ', '\x7b', '\n']

def Graph.lines (graph : Graph) : List (List Char) :=
  graph.opening :: graph.statements.map Statement.line ++ [['\x7d', '\n']]

end ProgramModel.Dot
