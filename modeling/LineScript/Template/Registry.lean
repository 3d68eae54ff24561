import LineScript.Template.Basic

/-!
# The templates of a run

A name is defined once and never removed.
-/

namespace LineScript

/-- The registered templates, in the order of their definitions, each name once. -/
structure Registry where
  templates : List Template := []
deriving DecidableEq, Repr, Inhabited

namespace Registry

/-- The template of a name. -/
def get? (reg : Registry) (name : Text) : Option Template :=
  reg.templates.find? (·.name = name)

/-- Whether a name is taken. -/
def contains (reg : Registry) (name : Text) : Bool := (reg.get? name).isSome

/-- How many templates there are. -/
def size (reg : Registry) : Nat := reg.templates.length

/-- Adds a template whose name is free. -/
def define (reg : Registry) (t : Template) : Except Cause Registry :=
  match reg.get? t.name with
  | some previous =>
      .error (.redefined t.name (previous.file ++ [':'] ++ Text.ofNat previous.line))
  | none => .ok ⟨reg.templates ++ [t]⟩

/-- The templates in the order of their names. -/
def sorted (reg : Registry) : List Template :=
  reg.templates.mergeSort fun s t => Text.le s.name t.name

/-- The template that a command of this name calls; one without text is not called. -/
def callee? (reg : Registry) (name : Text) : Option Template :=
  (reg.get? name).filter fun t => t.body ≠ []

end Registry

end LineScript
