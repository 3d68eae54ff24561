import LineScript.Pattern.Match
import LineScript.Pattern.Read
import LineScript.Text.Quoted

/-!
# Checks

A check compares a value with an expected one under an operator. What makes a check invalid is
decided by the operator and the expected value alone, before any value is looked at. The language
of the patterns that a value may be matched with is a parameter: all that counts is how it reads a
pattern and what a pattern matches.

* `PatternLanguage.prepare` reads the operator and the expected value.
* `PatternLanguage.run` compares a value.
* `PatternLanguage.checkText` does both, and `checkText` does so with the patterns of `Pattern`.
-/

namespace LineScript

/-- Why a check cannot be carried out: the expected value is no pattern, there is nothing to compare
    with, there is no such operator, or the document to look into is malformed. What the readers of
    patterns and documents have to say is only shown. -/
inductive CheckError where
  | badPattern (pattern : Text) (detail : String)
  | emptyExpectation
  | unknownOperator (op : Text)
  | badJson (detail : String)
deriving DecidableEq, Repr, Inhabited

/-- The result of a check: the comparison holds, or it does not, or there is none. -/
inductive Outcome where
  | pass
  | fail (message : String)
  | invalid (error : CheckError)
deriving DecidableEq, Repr, Inhabited

/-! ## Wording -/

/-- A text between backquotes, or quoted if it has a backquote or a control other than the tab. -/
def backquoted (t : Text) : String :=
  if t.any fun c => c == '\x60' || (isControl c && c != '\t') then quoted t
  else String.ofList ('\x60' :: t ++ ['\x60'])

/-- A text as a failure shows it: without the line feeds at its end and with its lines moved one
    tab to the right; texts without anything to see have a name. -/
def shownText (t : Text) : String :=
  match t, Text.dropFinal '\n' t with
  | [], _ => "(empty)"
  | ['\n'], _ => "(blank line)"
  | _, [] => "(blank lines)"
  | _, t => String.ofList (Text.indented t)

/-- What a check error says. -/
def CheckError.heading : CheckError → String
  | .badPattern pattern _ => s!"error compiling regex {backquoted pattern}"
  | .emptyExpectation => "non-regex comparison requires non-empty want value"
  | .unknownOperator op => s!"unknown operator {quoted op}"
  | .badJson _ => "error parsing JSON"

/-- What the reader of a pattern or document adds to it. -/
def CheckError.detail : CheckError → Option String
  | .badPattern _ detail => some detail
  | .badJson detail => some detail
  | _ => none

/-- The wording of a check error. -/
def CheckError.message (error : CheckError) : String :=
  match error.detail with
  | some detail => s!"{error.heading}: {detail}"
  | none => error.heading

/-! ## Tests -/

/-- A comparison with an expected value; `ρ` are the patterns. -/
inductive Test (ρ : Type) where
  | equal (want : Text)
  | differ (want : Text)
  | matching (want : Text) (pattern : ρ)
  | notMatching (want : Text) (pattern : ρ)
  | containing (want : Text)
  | notContaining (want : Text)
deriving DecidableEq, Repr

namespace Test

/-- The comparison of an operator that needs something to compare with. -/
def plain? {ρ : Type} (op want : Text) : Option (Test ρ) :=
  match String.ofList op with
  | "==" => some (.equal want)
  | "!=" => some (.differ want)
  | "contains" => some (.containing want)
  | "!contains" => some (.notContaining want)
  | _ => none

/-- What is said of a value that does not pass. -/
def complaint {ρ : Type} (what got : Text) : Test ρ → String
  | .equal want => s!"{String.ofList what} = {backquoted got}, want {backquoted want}"
  | .differ want => s!"{String.ofList what} == {backquoted want} (but should not)"
  | .matching want _ =>
      s!"{String.ofList what} does not match {backquoted want} (but should)\t{shownText got}"
  | .notMatching want _ =>
      s!"{String.ofList what} matches {backquoted want} (but should not)\t{shownText got}"
  | .containing want =>
      s!"{String.ofList what} does not contain {backquoted want} (but should)\t{shownText got}"
  | .notContaining want =>
      s!"{String.ofList what} contains {backquoted want} (but should not)\t{shownText got}"

end Test

/-- A language of patterns: how a written pattern is compiled, or what is said of one that is
    refused, and whether a compiled pattern matches some part of a text. -/
structure PatternLanguage where
  Compiled : Type
  compile : Text → Except String Compiled
  isMatch : Compiled → Text → Bool

namespace PatternLanguage

variable (lang : PatternLanguage)

/-- Reads a pattern that a check expects. -/
def readPattern (want : Text) : Except CheckError lang.Compiled :=
  match lang.compile want with
  | .ok p => .ok p
  | .error detail => .error (.badPattern want detail)

/-- The comparison that an operator and an expected value stand for. -/
def prepare (op want : Text) : Except CheckError (Test lang.Compiled) :=
  if op = ['~'] then (lang.readPattern want).map (.matching want)
  else if op = ['!', '~'] then (lang.readPattern want).map (.notMatching want)
  else if want = [] then .error .emptyExpectation
  else match Test.plain? op want with
    | some test => .ok test
    | none => .error (.unknownOperator op)

/-- Whether a value passes. -/
def holds : Test lang.Compiled → Text → Bool
  | .equal want, got => got = want
  | .differ want, got => got ≠ want
  | .matching _ p, got => lang.isMatch p got
  | .notMatching _ p, got => !lang.isMatch p got
  | .containing want, got => Text.hasPart want got
  | .notContaining want, got => !Text.hasPart want got

/-- Compares a value, which `what` names. -/
def run (test : Test lang.Compiled) (what got : Text) : Outcome :=
  if lang.holds test got then .pass else .fail (test.complaint what got)

/-- Checks the value `got`, which `what` names, against `want` under an operator. -/
def checkText (what op got want : Text) : Outcome :=
  match lang.prepare op want with
  | .ok test => lang.run test what got
  | .error error => .invalid error

end PatternLanguage

/-! ## The patterns of the program -/

/-- The patterns of `Pattern` as a language. -/
def Pattern.language : PatternLanguage where
  Compiled := Pattern
  compile want := (Pattern.read want).mapError Pattern.ReadError.message
  isMatch := Pattern.matchesIn

/-- Checks a value with these patterns. -/
def checkText (what op got want : Text) : Outcome := Pattern.language.checkText what op got want

end LineScript
