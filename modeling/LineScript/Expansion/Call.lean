import LineScript.Expansion.Stacks
import LineScript.Script.Arguments
import LineScript.Template.Reference
import LineScript.Template.Registry

/-!
# Calling a template

A call stands for the lines of its template's text with the arguments put in; lines that are
calls themselves are expanded in turn, so the result of a call is complete before the next line
is looked at. A call that fails anywhere gives nothing but its error.

Calls nest as deep as there are templates and no deeper, because an active template is not
called again. `expandCall` recurses on that room: when no room is left, every template is
active, and one more call can only be a recursion.
-/

namespace LineScript

/-- The outcome of a step that enters and leaves calls, with the calls active after it. -/
abbrev Calling (α : Type) := CallStack → Except ExpansionError α × CallStack

/-- The error of calling a template that is active. -/
def recursionError (t : Template) (site : Expanded) (calls : CallStack) : ExpansionError :=
  let start := "    ".toList
  ⟨site, .recursion t.name
    (Text.stripNewline (formatStack start calls.frames ++ formatStack start [site]))⟩

/-- One argument for every parameter of the template. -/
def matchArguments (t : Template) (site : Expanded) : Except ExpansionError Arguments :=
  let args := Arguments.ofBody (some t.params.length) site.body
  if args.size = t.params.length then .ok args
  else .error ⟨site, .argumentCount t.name t.params.length args.size⟩

/-- The value of a parameter in a call. -/
def parameterValue (t : Template) (args : Arguments) (name : Text) : Except ExpansionError Text :=
  match t.paramIndex? name with
  | some i => .ok (args.get i)
  | none => .error ⟨t.source, .unknownParameter name⟩

/-- A line of a template's text with the arguments put in, first into its name, then into its
    body. It may not become a definition. -/
def instantiate (t : Template) (args : Arguments) (site : Expanded) (line : Expression) :
    Except ExpansionError Expanded := do
  let name ← substitute (parameterValue t args) line.name
  let body ← substitute (parameterValue t args) line.body
  let e := Expanded.ofExpression { line with name, body } t.file
  if name = defineWord then .error ⟨site, .nestedDefine t.name e.toSource⟩
  else .ok e

/-- Attaches the active calls to an expression that has none. -/
def Expanded.within (frames : List Expanded) (e : Expanded) : Expanded :=
  if e.stack.isEmpty then { e with stack := frames } else e

/-- Expands a command that is no directive: a blank line is itself, the name of a template with
    text is a call, and anything else is itself inside the active calls. -/
def expandCommand (reg : Registry) (call : Template → Expanded → Calling (List Expanded))
    (e : Expanded) : Calling (List Expanded) := fun calls =>
  if e.name = [] then (.ok [e], calls)
  else match reg.callee? e.name with
    | some t => call t e calls
    | none => (.ok [{ e with stack := calls.frames }], calls)

/-- Expands the lines of a template's text in order. -/
def expandLines (reg : Registry) (call : Template → Expanded → Calling (List Expanded))
    (t : Template) (args : Arguments) (site : Expanded) :
    List Expression → Calling (List Expanded)
  | [], calls => (.ok [], calls)
  | line :: lines, calls =>
      match instantiate t args site line with
      | .error error => (.error error, calls)
      | .ok e =>
          match expandCommand reg call e calls with
          | (.error error, calls) => (.error error, calls)
          | (.ok results, calls) =>
              match expandLines reg call t args site lines calls with
              | (.error error, calls') => (.error error, calls')
              | (.ok more, calls') => (.ok (results.map (·.within calls.frames) ++ more), calls')

/-- Expands the text of a template for one call. A malformed line of the text is met after the
    lines above it. -/
def expandBody (reg : Registry) (call : Template → Expanded → Calling (List Expanded))
    (t : Template) (site : Expanded) : Calling (List Expanded) := fun calls =>
  match matchArguments t site with
  | .error error => (.error error, calls)
  | .ok args =>
      let (lines, malformed) := readAll (Stream.ofText t.body)
      match expandLines reg call t args site lines calls with
      | (.error error, calls) => (.error error, calls)
      | (.ok results, calls) =>
          match malformed with
          | some error => (.error (.ofSyntax t.file error), calls)
          | none => (.ok results, calls)

/-- Expands one call, with room for that many calls inside the active ones. -/
def expandCall (reg : Registry) : Nat → Template → Expanded → Calling (List Expanded)
  | 0, t, site, calls =>
      (.error (recursionError t { site with stack := calls.frames } calls), calls)
  | room + 1, t, site, calls =>
      let site := { site with stack := calls.frames }
      match calls.push? site with
      | none => (.error (recursionError t site calls), calls)
      | some inner =>
          let (result, inner) := expandBody reg (expandCall reg room) t site inner
          (result, inner.pop)

/-- Expands a command of a file that is no directive. -/
def expandFileCommand (reg : Registry) (e : Expanded) : Calling (List Expanded) :=
  expandCommand reg (expandCall reg reg.size) e

end LineScript
