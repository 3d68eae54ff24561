import LineScript.Document.Basic
import LineScript.Expansion.Expander

/-!
# Previews

A preview expands one call against the definitions that can be seen from a document. It is the
expansion of a script that holds these definitions, in the order of their names, and the call.
-/

namespace LineScript

namespace Document

/-- The script of a preview. -/
def previewScript (doc : Document) (name args : Text) : Text :=
  doc.definitions.flatMap Definition.toSource ++ Expression.toSource { name, body := args }

/-- The source that a call expands to. -/
def preview (doc : Document) (name args : Text) : Except ExpansionError Text :=
  let script := "preview".toList
  let fs : FileSystem := { files := [(script, .ok (Stream.ofText (doc.previewScript name args)))] }
  match expandScript fs { extension := none } script with
  | (es, none) => .ok (es.flatMap (·.toSource))
  | (_, some error) => .error error

end Document

end LineScript
