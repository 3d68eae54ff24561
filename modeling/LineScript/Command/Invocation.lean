import LineScript.Expansion.Options

/-!
# Invocations

What a command line asks for, once it is understood.
-/

namespace LineScript

/-- The commands: to print a script in full, to print every command with its origin, to expand
    all scripts of a directory, to report likely mistakes, and to list the templates that a
    script sees. -/
inductive Verb where
  | expand
  | trace
  | check
  | lint
  | templates
deriving DecidableEq, Repr, Inhabited

namespace Verb

/-- All commands. -/
def all : List Verb := [.expand, .trace, .check, .lint, .templates]

/-- The word of a command. -/
def word : Verb → Text
  | .expand => "expand".toList
  | .trace => "trace".toList
  | .check => "check".toList
  | .lint => "lint".toList
  | .templates => "templates".toList

/-- The command of a word. -/
def ofWord? (w : Text) : Option Verb := all.find? (·.word = w)

/-- What the command works on if the command line does not say. -/
def defaultOperand : Verb → Option Text
  | .check => some ['.']
  | _ => none

/-- Words and commands belong to each other. -/
theorem ofWord?_word (v : Verb) : ofWord? v.word = some v := by
  cases v <;> decide

end Verb

/-- A command with everything it needs. The operand is the script, or the directory to check;
    names are looked up in `directory`, and `json` asks for one object per line in place of
    source text. -/
structure Invocation where
  verb : Verb
  operand : Text
  directory : Text := ['.']
  options : Options := {}
  json : Bool := false
deriving DecidableEq, Repr, Inhabited

end LineScript
