import LineScript.Check.Basic
import LineScript.Json.Read
import LineScript.Script.Arguments

/-!
# Checks of JSON documents

A check of a document reads `POINTER OPERATOR EXPECTED`. Values are compared as compact JSON, so
strings keep their quotes; a pointer that leads nowhere gives `undefined`. The check itself is
looked at before the document. What a document is, where a pointer leads in it and how a part of it
is printed are parameters, as the patterns are.

* `JsonLibrary.textAt`: the value that a check of a document compares.
* `PatternLanguage.checkJson`: a check of a document. `checkJson` is the same with the patterns of
  `Pattern` and the documents of `Json`.
-/

namespace LineScript

/-- Documents: how a text is parsed, or what is said of one that is malformed, which part of a value
    a pointer leads to, and how a value is printed. -/
structure JsonLibrary where
  Value : Type
  parse : Text → Except String Value
  pointer? : Value → Text → Option Value
  print : Value → Text

/-- The text of the part that a pointer leads to. A lone slash stands for the whole document. -/
def JsonLibrary.textAt (json : JsonLibrary) (doc : json.Value) (pointer : Text) : Text :=
  match json.pointer? doc (if pointer = ['/'] then [] else pointer) with
  | some v => json.print v
  | none => "undefined".toList

/-- Checks a document. The check is tried on some value first, and if it is invalid the document is
    not looked at. -/
def PatternLanguage.checkJson (lang : PatternLanguage) (json : JsonLibrary)
    (check document : Text) : Outcome :=
  let (pointer, op, want) := threeArguments check
  match lang.checkText pointer op ['_'] want with
  | .invalid error => .invalid error
  | _ =>
      match json.parse document with
      | .ok doc => lang.checkText pointer op (json.textAt doc pointer) want
      | .error detail => .invalid (.badJson detail)

/-! ## The documents of the program -/

/-- The documents of `Json` as a library. -/
def Json.library : JsonLibrary where
  Value := Json.Value
  parse t := (Json.read t).mapError Json.ReadError.message
  pointer? := Json.Value.pointer?
  print := Json.Value.write

/-- Checks a document with these patterns and documents. -/
def checkJson (check document : Text) : Outcome :=
  Pattern.language.checkJson Json.library check document

end LineScript
