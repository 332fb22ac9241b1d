/-
# ProgramModel.Command.Arguments -- the words of a command line

A word is an option in its long or short form, a value, or the escape `--` after which
every word is a value.  A command accepts flags, which stand alone, and options, which
take a value after them or attached to them.  Each may be given once, in any order and
between the values.
-/
namespace ProgramModel.Command

set_option autoImplicit false

/-! ## Words -/

/-- One word of a command line. -/
inductive Word where
  /-- The word after which there are values only. -/
  | escape
  /-- A name after two dashes, with the value after an equals sign. -/
  | long (name : String) (value : Option String)
  /-- A letter after a dash, with what is attached to it. -/
  | short (letter : Char) (attached : Option String)
  | value (text : String)
  deriving DecidableEq, Repr

/-- A name and the value after the first equals sign. -/
def splitAtEquals (text : List Char) : String × Option String :=
  match text.dropWhile (· != '=') with
  | [] => (String.ofList text, none)
  | _ :: value => (String.ofList (text.takeWhile (· != '=')), some (String.ofList value))

/-- What is attached to a letter; an equals sign before it does not count. -/
def attachment : List Char → Option String
  | [] => none
  | '=' :: value => some (String.ofList value)
  | value => some (String.ofList value)

def Word.ofText (text : String) : Word :=
  match text.toList with
  | ['-', '-'] => .escape
  | '-' :: '-' :: rest =>
      let (name, attached) := splitAtEquals rest
      .long name attached
  | '-' :: letter :: rest => .short letter (attachment rest)
  | _ => .value text

/-! ## What a command accepts -/

structure ValueOption where
  name : String
  letter : Option Char := none
  deriving DecidableEq, Repr

/-- The flags and options that a command accepts. -/
structure Accepted where
  flags : List String := []
  options : List ValueOption := []

def Accepted.named? (accepted : Accepted) (name : String) : Option ValueOption :=
  accepted.options.find? fun option => option.name == name

def Accepted.lettered? (accepted : Accepted) (letter : Char) : Option ValueOption :=
  accepted.options.find? fun option => option.letter == some letter

/-- What a command line gives. -/
structure Given where
  flags : List String := []
  options : List (String × String) := []
  values : List String := []
  deriving DecidableEq, Repr

namespace Given

/-- One more flag, unless it was given before. -/
def addFlag? (given : Given) (name : String) : Option Given :=
  if given.flags.contains name then none else some { given with flags := given.flags ++ [name] }

/-- One more option, unless it was given before. -/
def addOption? (given : Given) (option : ValueOption) (value : String) : Option Given :=
  if given.options.any (·.1 == option.name) then none
  else some { given with options := given.options ++ [(option.name, value)] }

def addValue (given : Given) (value : String) : Given :=
  { given with values := given.values ++ [value] }

def hasFlag (given : Given) (name : String) : Bool := given.flags.contains name

def option? (given : Given) (name : String) : Option String :=
  (given.options.find? (·.1 == name)).map (·.2)

end Given

/-- The option that a word begins, with the value attached to it. -/
def Accepted.option? (accepted : Accepted) : Word → Option (ValueOption × Option String)
  | .long name value => (accepted.named? name).map (·, value)
  | .short letter attached => (accepted.lettered? letter).map (·, attached)
  | _ => none

/-- Gather what words give.  With `stopsAtValue`, the first value ends it, and it and the words
after it are left over. -/
def gather? (accepted : Accepted) (stopsAtValue : Bool) : List String → Given →
    Option (Given × List String)
  | [], given => some (given, [])
  | text :: rest, given =>
      match Word.ofText text with
      | .escape =>
          if stopsAtValue then none else some ({ given with values := given.values ++ rest }, [])
      | .value value =>
          if stopsAtValue then some (given, text :: rest)
          else gather? accepted stopsAtValue rest (given.addValue value)
      | word =>
          match accepted.option? word with
          | some (option, some value) => do
              gather? accepted stopsAtValue rest (← given.addOption? option value)
          | some (option, none) =>
              match rest with
              | [] => none
              | next :: rest =>
                  match Word.ofText next with
                  | .value value => do
                      gather? accepted stopsAtValue rest (← given.addOption? option value)
                  | _ => none
          | none =>
              match word with
              | .long name none =>
                  if accepted.flags.contains name then do
                    gather? accepted stopsAtValue rest (← given.addFlag? name)
                  else none
              | _ => none

end ProgramModel.Command
