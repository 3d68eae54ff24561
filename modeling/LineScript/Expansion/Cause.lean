import LineScript.Expansion.Expanded
import LineScript.Script.Reader
import LineScript.Text.Quoted

/-!
# What stops an expansion

A cause says what went wrong; an `ExpansionError` pins it to the expression it went wrong at.
All wording is in `Cause.message`.
-/

namespace LineScript

/-- Why an expansion stops. A line is malformed or cannot be read; a definition has no name, a name
    with a character that names may not have, or that of a template registered at the place given; a
    call does not have one argument for every parameter, a body refers to something that is no
    parameter or turns into a definition, or a template is called while it is being expanded; a
    splice does not name exactly one file, names one of another directory, spells out the extension,
    or names a file that is being read; or a file cannot be opened. -/
inductive Cause where
  | grammar (message : String) (access : Option AccessError)
  | missingTemplateName
  | invalidTemplateName (name : Text)
  | redefined (name previous : Text)
  | argumentCount (name : Text) (expected actual : Nat)
  | unknownParameter (name : Text)
  | nestedDefine (template source : Text)
  | recursion (name trace : Text)
  | missingIncludePath
  | includeArguments (count : Nat)
  | includeSeparator (path : Text)
  | includeExtension (path extension : Text)
  | includeCycle (chain : List Text)
  | unopened (path : Text) (error : AccessError)
deriving DecidableEq, Repr, Inhabited

/-- The broad classes of causes. -/
inductive CauseFamily where
  | grammar
  | definition
  | invocation
  | splicing
  | access
deriving DecidableEq, Repr, Inhabited

namespace Cause

/-- The class of a cause. -/
def family : Cause → CauseFamily
  | .grammar .. => .grammar
  | .missingTemplateName | .invalidTemplateName _ | .redefined .. => .definition
  | .argumentCount .. | .unknownParameter _ | .nestedDefine .. | .recursion .. => .invocation
  | .missingIncludePath | .includeArguments _ | .includeSeparator _ | .includeExtension ..
  | .includeCycle _ => .splicing
  | .unopened .. => .access

/-- The short name of a cause. -/
def kind : Cause → String
  | .grammar .. => "syntax"
  | .missingTemplateName => "missing_template_name"
  | .invalidTemplateName _ => "invalid_template_name"
  | .redefined .. => "redefined"
  | .argumentCount .. => "argument_count"
  | .unknownParameter _ => "unknown_parameter"
  | .nestedDefine .. => "nested_define"
  | .recursion .. => "recursion"
  | .missingIncludePath => "missing_include_path"
  | .includeArguments _ => "include_arguments"
  | .includeSeparator _ => "include_separator"
  | .includeExtension .. => "include_extension"
  | .includeCycle _ => "include_cycle"
  | .unopened .. => "open"

/-- The failure of the file layer behind a cause. -/
def access : Cause → Option AccessError
  | .grammar _ access => access
  | .unopened _ error => some error
  | _ => none

/-- The wording of a cause. -/
def message : Cause → String
  | .grammar message _ => message
  | .missingTemplateName => "define: missing name argument"
  | .invalidTemplateName name => s!"define: name contains invalid characters: {quoted name}"
  | .redefined name previous =>
      s!"template {quoted name} redefined; previous define: {String.ofList previous}"
  | .argumentCount name expected actual =>
      s!"template {quoted name} expects {expected} arguments, got {actual}"
  | .unknownParameter name => s!"unknown parameter reference: {quoted name}"
  | .nestedDefine template source =>
      s!"expansion of {quoted template} contains illegal nested define: {quoted source}"
  | .recursion name trace =>
      s!"recursion detected in template {String.ofList name}:\n{String.ofList trace}"
  | .missingIncludePath => "include: missing filename"
  | .includeArguments count => s!"include: expects exactly one filename, got {count} arguments"
  | .includeSeparator path =>
      s!"include: path {quoted path} contains '/'; only root-level includes are allowed"
  | .includeExtension path extension =>
      s!"include: path {quoted path} has {String.ofList extension} extension; " ++
        "the extension is not required and will be added automatically"
  | .includeCycle chain =>
      "include cycle detected: " ++ String.ofList (Text.join " -> ".toList chain)
  | .unopened path error => s!"open {String.ofList path}: {error.message}"

/-- The cause of a malformed or unreadable line. -/
def ofFlaw (flaw : Flaw) : Cause := .grammar flaw.message flaw.access

end Cause

/-- A cause and the expression it is found at. -/
structure ExpansionError where
  expr : Expanded
  cause : Cause
deriving DecidableEq, Repr, Inhabited

namespace ExpansionError

/-- A malformed or unreadable line of a file. -/
def ofSyntax (file : Text) (error : SyntaxError) : ExpansionError :=
  ⟨.atLine file error.line, .ofFlaw error.flaw⟩

/-- `LOCATION: CAUSE`. -/
def message (error : ExpansionError) : String :=
  s!"{String.ofList error.expr.errorLocation}: {error.cause.message}"

end ExpansionError

end LineScript
