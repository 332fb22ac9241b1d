/-
# ProgramModel.Command.LogLevel -- the level of the log as a setting

A level is set by its name, in any ASCII case, or by a number from 1, the loudest,
to 5; blanks around it do not count.
-/
import ProgramModel.Log
import ProgramModel.Text.Blank

namespace ProgramModel

set_option autoImplicit false

namespace Level

/-- The levels, loudest first. -/
def all : List Level := [.error, .warn, .info, .debug, .trace]

def ofNumber? : Nat → Option Level
  | 0 => none
  | place + 1 => all[place]?

def decimal? (digits : List Char) : Option Nat :=
  if digits ≠ [] ∧ digits.all Char.isDigit then
    some (digits.foldl (fun value digit => value * 10 + (digit.toNat - '0'.toNat)) 0)
  else none

/-- The value of decimal digits that may have a plus sign before them. -/
def number? : List Char → Option Nat
  | '+' :: digits => decimal? digits
  | digits => decimal? digits

def ofName? (name : List Char) : Option Level :=
  all.find? fun level => level.name.toList == name.map Char.toLower

def ofSetting? (setting : String) : Option Level :=
  let text := Text.trimChars setting.toList
  match (number? text).bind ofNumber? with
  | some level => some level
  | none => ofName? text

/-- What is said of a setting that names no level. -/
def settingFault (setting : String) : String :=
  "Invalid --log-level \"" ++ setting ++ "\": error parsing level: expected one of " ++
    "\"error\", \"warn\", \"info\", \"debug\", \"trace\", or a number 1-5"

end Level

end ProgramModel
