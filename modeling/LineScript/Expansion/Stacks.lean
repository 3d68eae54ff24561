import LineScript.Expansion.Expanded

/-!
# Active calls and open files

The calls being expanded, with the names of their templates, and the files being read. A template
is not called again while it is active, and a file is not opened again while it is open.
-/

namespace LineScript

/-! ## Active calls -/

/-- The active calls, outermost first, and the names of the templates being expanded. -/
structure CallStack where
  frames : List Expanded := []
  active : List Text := []
deriving DecidableEq, Repr, Inhabited

namespace CallStack

/-- Whether a template is being expanded. -/
def isActive (calls : CallStack) (name : Text) : Bool := calls.active.contains name

/-- Enters a call, unless its template is active. -/
def push? (calls : CallStack) (frame : Expanded) : Option CallStack :=
  if calls.isActive frame.name then none
  else some ⟨calls.frames ++ [frame], frame.name :: calls.active⟩

/-- Leaves the innermost call. -/
def pop (calls : CallStack) : CallStack :=
  match calls.frames.getLast? with
  | none => calls
  | some frame => ⟨calls.frames.dropLast, calls.active.erase frame.name⟩

/-- How many calls are active. -/
def depth (calls : CallStack) : Nat := calls.frames.length

end CallStack

/-! ## Open files -/

/-- The names of the open files, innermost first. -/
structure IncludeStack where
  opened : List Text := []
deriving DecidableEq, Repr, Inhabited

namespace IncludeStack

/-- The names of the open files, entry file first. -/
def files (stack : IncludeStack) : List Text := stack.opened.reverse

/-- Whether a file is open. -/
def contains (stack : IncludeStack) (file : Text) : Bool := stack.opened.contains file

/-- Enters a file, unless it is open. -/
def push? (stack : IncludeStack) (file : Text) : Option IncludeStack :=
  if stack.contains file then none else some ⟨file :: stack.opened⟩

/-- Leaves the innermost file. -/
def pop (stack : IncludeStack) : IncludeStack := ⟨stack.opened.tail⟩

/-- The open files followed by one that would close a cycle. -/
def cycle (stack : IncludeStack) (next : Text) : List Text := stack.files ++ [next]

/-- How many files are open. -/
def depth (stack : IncludeStack) : Nat := stack.opened.length

end IncludeStack

end LineScript
