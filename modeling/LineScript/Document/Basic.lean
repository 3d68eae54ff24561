import LineScript.Document.Survey
import LineScript.Script.Arguments
import LineScript.Text.Quoted

/-!
# Documents

A document is one script, looked at without running it: its expressions, the definitions that
can be seen from it, and what is likely wrong with it.
-/

namespace LineScript

/-- A likely mistake. -/
structure Issue where
  line : Nat
  message : String
deriving DecidableEq, Repr, Inhabited

/-- An analysed script: its expressions up to the first malformed line, the definitions in it and in
    the files it includes, in the order they were found, and its likely mistakes by line. -/
structure Document where
  name : Text
  expressions : List Expression
  found : List Definition
  issues : List Issue
deriving DecidableEq, Repr, Inhabited

/-- How many arguments of a call are not blank, if one more than expected may be split off. -/
def suppliedArguments (body : Text) (expected : Nat) : Nat :=
  (splitArguments (some (expected + 1)) body).countP fun arg => Text.trim arg ≠ []

/-- The issue of a call of a known template in a document: the definition comes later, or there
    are too few arguments. -/
def callIssue (document : Text) (d : Definition) (e : Expression) : Option Issue :=
  let expected := d.params.length
  let supplied := suppliedArguments e.body expected
  if d.file = document ∧ e.line < d.line then
    some ⟨e.line, s!"template {quoted e.name} used before definition on line {d.line}"⟩
  else if supplied < expected then
    some ⟨e.line, s!"{String.ofList e.name} requires {expected} argument(s), got {supplied}"⟩
  else none

/-- The issue of an expression of a document, given the definitions that can be seen. -/
def expressionIssue (document : Text) (s : Survey) (e : Expression) : Option Issue :=
  if e.name = [] ∨ e.name = defineWord ∨ e.name = includeWord then none
  else (s.definition? e.name).bind (callIssue document · e)

namespace Document

/-- Analyses a text as the contents of a name. -/
def ofText (fs : FileSystem) (o : Options) (name text : Text) : Document :=
  let (expressions, malformed) := readAll (Stream.ofText text)
  let s := survey fs o name text
  let issues := malformed.toList.map (fun error => ⟨error.line, error.flaw.message⟩) ++
    expressions.filterMap (expressionIssue name s)
  { name, expressions, found := s.definitions,
    issues := issues.mergeSort fun a b => a.line ≤ b.line }

/-- The definition of a name. -/
def definition? (doc : Document) (name : Text) : Option Definition :=
  doc.found.find? (·.name = name)

/-- All definitions in the order of their names. -/
def definitions (doc : Document) : List Definition :=
  doc.found.mergeSort fun a b => Text.le a.name b.name

end Document

end LineScript
