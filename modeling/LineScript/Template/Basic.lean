import LineScript.Expansion.Cause

/-!
# Templates

A template is registered by a `define` expression: the first line of its body names the template
and its parameters, the other lines are the text that a call stands for.
-/

namespace LineScript

/-- A registered template and the expression that registered it. A parameter that occurs twice
    stands for its last position. The body is the text of a call, each line with its line feed, and
    empty if the definition has one line. -/
structure Template where
  name : Text
  params : List Text
  body : Text
  source : Expanded
deriving DecidableEq, Repr, Inhabited

/-- Splits the body of a definition into its header and the template's text, in which the last
    line gets its line feed back. -/
def splitDefinition (body : Text) : Text × Text :=
  match Text.cutLine body with
  | (head, none) => (head, [])
  | (head, some rest) => (head, rest ++ ['\n'])

namespace Template

/-- The file that defines the template. -/
def file (t : Template) : Text := t.source.file

/-- The line of its definition. -/
def line (t : Template) : Nat := t.source.line

/-- The position of a parameter, the last one if it occurs twice. -/
def paramIndex? (t : Template) (name : Text) : Option Nat :=
  (t.params.reverse.idxOf? name).map fun i => t.params.length - 1 - i

/-- Reads the template that an expression defines. -/
def ofDefinition (decl : Expanded) : Except Cause Template :=
  let (head, body) := splitDefinition decl.body
  let (name, rest) := Text.cutField head
  if name = [] then .error .missingTemplateName
  else if name.any fun c => isBlank c || isControl c then .error (.invalidTemplateName name)
  else .ok { name, params := Text.fields rest, body, source := decl }

end Template

end LineScript
