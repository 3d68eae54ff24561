import LineScript.Text.Blank

/-!
# Expressions

An expression is one command with its continuation lines, or one blank line, together with the
comment lines directly above it. `toSource` prints it so that it can be read again.
-/

namespace LineScript

/-- One command or blank line, with the comment above it. The number, from 1, is that of the command
    line or blank line and not that of the comment. Each line of the comment is as written, with its
    line feed. The name is the first word of the command and empty for a blank line; the body is
    what follows it, with continuation lines joined by line feeds and freed of their tab. -/
structure Expression where
  line : Nat := 0
  comment : Text := []
  name : Text := []
  body : Text := []
deriving DecidableEq, Repr, Inhabited

/-- The command that registers a template. -/
def defineWord : Text := ['d', 'e', 'f', 'i', 'n', 'e']

/-- The command that splices a file. -/
def includeWord : Text := ['i', 'n', 'c', 'l', 'u', 'd', 'e']

/-- The word of a definition is not the word of a splice. -/
theorem defineWord_ne_includeWord : defineWord ≠ includeWord := by decide

/-- Splits the text of a command at its first space, tab or line feed. The name is trimmed; the
    body loses leading spaces and tabs, but no line feed. -/
def splitName (t : Text) : Text × Text :=
  let inName := fun c => c ≠ ' ' && c ≠ '\t' && c ≠ '\n'
  (Text.trim (t.takeWhile inName), (t.dropWhile inName).dropWhile fun c => c = ' ' || c = '\t')

namespace Expression

/-- The expression of a command's text: its line and the continuation lines without their tabs. -/
def ofText (line : Nat) (comment : Text) (t : Text) : Expression :=
  let (name, body) := splitName (Text.stripNewline t)
  { line, comment, name, body }

/-- A blank line has no name. -/
def isBlankLine (e : Expression) : Bool := e.name.isEmpty

/-- Prints an expression: the name, one space and the body, which starts on the next line if its
    first character is a line feed; continuation lines get their tab back. -/
def toSource (e : Expression) : Text :=
  let tail := Text.stripNewline e.body
  let tail :=
    if tail.head? = some '\n' then tail
    else match Text.trimStart tail with
      | [] => []
      | t => ' ' :: t
  e.name ++ Text.indented tail ++ ['\n']

end Expression

end LineScript
