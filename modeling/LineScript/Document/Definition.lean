import LineScript.Template.Basic

/-!
# Definitions as a reader of a document sees them

A definition is read off a `define` expression without registering anything. It prints as the
expression it was read from, without the comment.
-/

namespace LineScript

/-- A template as it is written in a document or a file it includes. Each line of the body has its
    line feed, and `doc` is the comment above the definition, freed of its marks. -/
structure Definition where
  name : Text
  params : List Text
  body : Text
  doc : Text
  line : Nat
  file : Text
deriving DecidableEq, Repr, Inhabited

/-- The text of a comment: every line without its mark and the blanks around it, and no empty
    lines at either end. -/
def commentText (comment : Text) : Text :=
  let unmarked := fun (l : Text) =>
    match Text.trim l with
    | '#' :: l => Text.trim l
    | l => l
  let lines := ((Text.stripNewline comment).splitOn '\n').map unmarked
  let dropEmpty := fun (ls : List Text) => ls.dropWhile (·.isEmpty)
  Text.join ['\n'] (dropEmpty (dropEmpty lines).reverse).reverse

/-- The name on the header line of a definition, and the text of its parameters. -/
def definitionHeader (body : Text) : Text × Text := Text.cutField (Text.cutLine body).1

namespace Definition

/-- Reads the definition that an expression of a file makes, if it has a name. -/
def ofExpression? (file : Text) (e : Expression) : Option Definition :=
  let (name, params) := definitionHeader e.body
  if name = [] then none
  else some
    { name, params := Text.fields params, body := (splitDefinition e.body).2,
      doc := commentText e.comment, line := e.line, file }

/-- The name and the parameters on one line. -/
def header (d : Definition) : Text := d.name ++ d.params.flatMap (' ' :: ·)

/-- Prints the definition. -/
def toSource (d : Definition) : Text :=
  let body := if d.body = [] then d.header else d.header ++ ['\n'] ++ d.body
  Expression.toSource { name := defineWord, body }

end Definition

end LineScript
