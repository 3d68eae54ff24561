import LineScript.Document.Basic

/-!
# Where names stand in a document

A name occurs as a command, on the header line of its definition, or as a command inside the
text of a definition. `Document.references` lists the occurrences of one name and
`Document.symbolAt` finds the occurrence at a position.
-/

namespace LineScript

/-- A range of characters on one line, up to the column in front of `stop`. Lines count from 1,
    columns from 0. -/
structure Span where
  line : Nat
  start : Nat
  stop : Nat
deriving DecidableEq, Repr, Inhabited

namespace Span

/-- The range of a name that starts at a column. -/
def ofName (line start : Nat) (name : Text) : Span := ⟨line, start, start + name.length⟩

/-- Whether a position lies in the range. -/
def contains (s : Span) (line column : Nat) : Bool :=
  s.line == line && s.start ≤ column && column < s.stop

end Span

/-- A place where a name stands, and whether it declares the name. -/
structure Occurrence where
  name : Text
  span : Span
  declares : Bool := false
deriving DecidableEq, Repr, Inhabited

/-- The column of the name on the header line of a definition. -/
def declarationColumn : Nat := defineWord.length + 1

/-- The commands inside the text of a definition, with their lines in the document. -/
def bodyCalls (decl : Expression) : List (Nat × Text) :=
  let body := (Text.cutLine decl.body).2.getD []
  ((readAll (Stream.ofText body)).1.filter (!·.isBlankLine)).map fun e =>
    (decl.line + e.line, e.name)

/-- The name that an expression declares. -/
def declaredName? (e : Expression) : Option Text :=
  if e.name = defineWord then
    match (definitionHeader e.body).1 with
    | [] => none
    | name => some name
  else none

/-- The names that stand in an expression, in order. -/
def Expression.occurrences (e : Expression) : List Occurrence :=
  { name := e.name, span := .ofName e.line 0 e.name } ::
    match declaredName? e with
    | none => []
    | some name =>
        { name, span := .ofName e.line declarationColumn name, declares := true } ::
          (bodyCalls e).map fun (line, call) => { name := call, span := .ofName line 1 call }

namespace Document

/-- The names that stand in a document, in order. -/
def occurrences (doc : Document) : List Occurrence :=
  doc.expressions.flatMap Expression.occurrences

/-- Where a name is used, and declared if asked for, each with the file. A declaration in another
    file comes first. -/
def references (doc : Document) (name : Text) (declarations : Bool) : List (Text × Span) :=
  let elsewhere := if declarations then
      ((doc.definition? name).filter fun d => d.file ≠ doc.name).toList.map fun d =>
        (d.file, Span.ofName d.line declarationColumn name)
    else []
  let here := doc.occurrences.filter fun o => o.name = name && (declarations || !o.declares)
  elsewhere ++ here.map fun o => (doc.name, o.span)

/-- The name at a position, and where it stands. -/
def symbolAt (doc : Document) (line column : Nat) : Option (Text × Span) :=
  (doc.occurrences.find? (·.span.contains line column)).map fun o => (o.name, o.span)

end Document

end LineScript
