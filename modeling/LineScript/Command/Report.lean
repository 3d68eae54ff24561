import LineScript.Command.Style
import LineScript.Document.Basic
import LineScript.Expansion.Expander

/-!
# What commands print

Every line that a command writes to its output is worded here.
-/

namespace LineScript

/-- The lines of a text without their ends, which are a line feed or a return and a line feed. -/
def shownLines (t : Text) : List Text :=
  (Text.physicalLines t).map fun l =>
    if l.getLast? = some '\n' then
      let l := l.dropLast
      if l.getLast? = some '\r' then l.dropLast else l
    else l

/-- A text line by line, four blanks in front of each. -/
def indentedLines (t : Text) : Output :=
  (shownLines t).map fun l => plain ("    ".toList ++ l ++ ['\n'])

/-- A result as source text, or as one object on one line. -/
def Expanded.printed (json : Bool) (e : Expanded) : Output :=
  if json then [plain (e.toJson ++ ['\n'])] else [plain e.toSource]

/-- A result behind its location, then the calls that led to it, the innermost first. -/
def Expanded.traced (e : Expanded) : Output :=
  [styled { color := some .cyan } e.location, plain (['>', ' '] ++ e.toSource)] ++
    if e.stack = [] then []
    else [styled { dimmed := true } (formatStack "    from ".toList e.stack.reverse)]

/-- Green for success and red for failure. -/
def verdictStyle (good : Bool) : Style :=
  { bold := true, color := some (if good then .green else .red) }

/-- Whether a script expands, and to how many commands, or why not. -/
def checkLines (script : Text) : Except ExpansionError Nat → Output
  | .ok count =>
      [styled (verdictStyle true) "PASS".toList,
        plain ([' '] ++ script ++ " (".toList ++ Text.ofNat count ++ " expressions)\n".toList)]
  | .error error =>
      [styled (verdictStyle false) "FAIL".toList, plain ([' '] ++ script ++ ['\n'])] ++
        indentedLines error.message.toList

/-- How many scripts expand and how many do not. -/
def summaryLine (passed failed : Nat) : Output :=
  [styled (verdictStyle (failed == 0))
    (Text.ofNat passed ++ " passed, ".toList ++ Text.ofNat failed ++ " failed\n".toList)]

/-- A likely mistake behind its place. -/
def Issue.printed (shownFile : Text) (i : Issue) : Output :=
  [styled { color := some .yellow } (shownFile ++ [':'] ++ Text.ofNat i.line),
    plain (": ".toList ++ i.message.toList ++ ['\n'])]

/-- A definition: name, parameters, place, and its comment below. -/
def Definition.printed (d : Definition) : Output :=
  [styled { bold := true } d.name,
    plain (d.params.flatMap (' ' :: ·) ++ "  (".toList ++ d.file ++ [':'] ++ Text.ofNat d.line ++
      ")\n".toList)] ++
    indentedLines d.doc

end LineScript
