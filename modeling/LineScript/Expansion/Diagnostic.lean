import LineScript.Expansion.Cause

/-!
# Diagnostics

How an expansion error is presented: a stable code, a label under the name of the offending
command, and advice where there is some to give.
-/

namespace LineScript

/-- A remark on a part of a source text, in bytes. -/
structure Label where
  offset : Nat
  length : Nat
  remark : String
deriving DecidableEq, Repr, Inhabited

/-- The remark under the offending command. -/
def CauseFamily.remark : CauseFamily → String
  | .grammar => "malformed line"
  | .definition => "bad definition"
  | .invocation => "in this call"
  | .splicing => "bad include"
  | .access => "could not open"

/-- A path without an extension it ends in. -/
def withoutExtension (path extension : Text) : Text :=
  if extension.isSuffixOf path then path.take (path.length - extension.length) else path

namespace Cause

/-- The code of a cause. -/
def code (cause : Cause) : String := s!"linebased::{cause.kind}"

/-- Advice on a cause. -/
def help : Cause → Option String
  | .grammar .. =>
      some "continuation lines start with exactly one tab and must follow a command"
  | .invalidTemplateName _ =>
      some "template names may not contain whitespace or control characters"
  | .redefined name _ =>
      some s!"templates are global; rename one of the definitions of {quoted name}"
  | .argumentCount _ expected _ =>
      some (s!"the last of the {expected} argument(s) absorbs any remaining text; " ++
        s!"supply at least {expected}")
  | .unknownParameter _ => some "references must name a parameter listed on the define line"
  | .recursion .. => some "a template may not call itself, directly or through other templates"
  | .includeExtension path extension => some s!"write {quoted (withoutExtension path extension)}"
  | .includeSeparator _ => some "all includes resolve against the script root"
  | _ => none

end Cause

/-- The label under the name of the offending command, which a blank line does not have. -/
def ExpansionError.label (error : ExpansionError) : Option Label :=
  if error.expr.name = [] then none
  else some ⟨0, (encodeUtf8 error.expr.name).length, error.cause.family.remark⟩

end LineScript
