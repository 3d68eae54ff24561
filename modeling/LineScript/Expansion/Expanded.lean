import LineScript.Script.Expression
import LineScript.Text.Quoted

/-!
# Expressions with their origin

An expanded expression knows the file it was read from and the template calls that led to it,
outermost first. Each call is an expanded expression itself, with the calls above it.

* `Expanded.location` says where it stands and in which template it executes.
* `formatStack` prints a chain of calls, one line each.
* `Expanded.toJson` prints one expression with its whole chain on one line.
-/

namespace LineScript

/-- An expression, the file it was read from as it is shown, and the calls that led to it, outermost
    first; there are none for a line of a file. -/
structure Expanded extends Expression where
  file : Text := []
  stack : List Expanded := []
deriving Repr, Inhabited

/-! ## Equality -/

mutual

/-- Compares two expressions with their chains of calls. -/
def Expanded.decEq : (a b : Expanded) → Decidable (a = b)
  | ⟨e, file, stack⟩, ⟨e', file', stack'⟩ =>
      if h : e = e' ∧ file = file' then
        match decEqStack stack stack' with
        | .isTrue hs => .isTrue (by rw [h.1, h.2, hs])
        | .isFalse hs => .isFalse fun heq => hs (by injection heq)
      else .isFalse fun heq => h (by injection heq with he hf; exact ⟨he, hf⟩)

/-- Compares two chains of calls. -/
def decEqStack : (as bs : List Expanded) → Decidable (as = bs)
  | [], [] => .isTrue rfl
  | [], _ :: _ => .isFalse nofun
  | _ :: _, [] => .isFalse nofun
  | a :: as, b :: bs =>
      match a.decEq b, decEqStack as bs with
      | .isTrue h, .isTrue hs => .isTrue (by rw [h, hs])
      | .isFalse h, _ => .isFalse fun heq => h (by injection heq)
      | _, .isFalse hs => .isFalse fun heq => hs (by injection heq)

end

instance : DecidableEq Expanded := Expanded.decEq

/-! ## Places -/

namespace Expanded

/-- A line of a file, outside every call. -/
def ofExpression (e : Expression) (file : Text) : Expanded := { e with file }

/-- A place in a file with no expression of its own. -/
def atLine (file : Text) (line : Nat) : Expanded := { line, file }

/-- The call that produced the expression. -/
def caller (e : Expanded) : Option Expanded := e.stack.getLast?

/-- The file as it is shown in a location. -/
def shownFile (e : Expanded) : Text := if e.file = [] then "<unknown>".toList else e.file

/-- `FILE:LINE: TEMPLATE@LOCAL`: the file, the line of the outermost call, the innermost template
    and the line in it. Outside every call the template is `main` and both lines are the same. -/
def location (e : Expanded) : Text :=
  let place := match e.stack.head?, e.stack.getLast? with
    | some outermost, some caller => Text.ofNat outermost.line ++ [':', ' '] ++ caller.name
    | _, _ => Text.ofNat e.line ++ ": main".toList
  e.shownFile ++ [':'] ++ place ++ ['@'] ++ Text.ofNat e.line

/-- The location that starts an error message: in a call the full location, else the file and the
    line, and the file alone for line 0. -/
def errorLocation (e : Expanded) : Text :=
  if e.stack ≠ [] then e.location
  else if e.line = 0 then e.shownFile
  else e.shownFile ++ [':'] ++ Text.ofNat e.line

end Expanded

/-- One line `PREFIX LOCATION> SOURCE` for every frame. -/
def formatStack (start : Text) (frames : List Expanded) : Text :=
  frames.flatMap fun frame => start ++ frame.location ++ ['>', ' '] ++ frame.toSource

/-! ## One-line form -/

mutual

/-- The expression as a JSON object with the keys line, comment, name, body, file, stack. -/
def Expanded.toJson : Expanded → Text
  | { line, comment, name, body, file, stack } =>
      ['\x7b'] ++ "\"line\":".toList ++ Text.ofNat line ++
        ",\"comment\":".toList ++ jsonString comment ++
        ",\"name\":".toList ++ jsonString name ++
        ",\"body\":".toList ++ jsonString body ++
        ",\"file\":".toList ++ jsonString file ++
        ",\"stack\":[".toList ++ Text.join [','] (stackJson stack) ++ [']', '\x7d']

/-- The frames of a stack as JSON objects. -/
def stackJson : List Expanded → List Text
  | [] => []
  | frame :: frames => frame.toJson :: stackJson frames

end

end LineScript
