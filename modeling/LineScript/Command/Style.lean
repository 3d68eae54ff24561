import LineScript.Text.Basic

/-!
# Styled output

Output is a list of pieces, some of which ask for a style. `render` writes the styles as terminal
escapes, or leaves them out.

* `render_plain`: without colour, output is the text of its pieces.
-/

namespace LineScript

/-- The colours that output uses. -/
inductive Color where
  | red
  | green
  | yellow
  | cyan
deriving DecidableEq, Repr, Inhabited

/-- How a piece of output looks. -/
structure Style where
  bold : Bool := false
  dimmed : Bool := false
  color : Option Color := none
deriving DecidableEq, Repr, Inhabited

/-- A text and its style, if it asks for one. -/
structure Piece where
  text : Text
  style : Option Style := none
deriving DecidableEq, Repr, Inhabited

/-- What a command writes. -/
abbrev Output := List Piece

/-- Text as it is. -/
def plain (text : Text) : Piece := { text }

/-- Text in a style. -/
def styled (style : Style) (text : Text) : Piece := { text, style := some style }

/-- The number of a colour as a terminal foreground. -/
def Color.code : Color → Nat
  | .red => 31
  | .green => 32
  | .yellow => 33
  | .cyan => 36

/-- The terminal escape with a number. -/
def escape (code : Nat) : Text := '\x1b' :: '[' :: Text.ofNat code ++ ['m']

/-- The escapes that switch a style on: everything off, then each property. -/
def Style.escapes (s : Style) : Text :=
  escape 0 ++ (if s.bold then escape 1 else []) ++ (if s.dimmed then escape 2 else []) ++
    match s.color with
    | some color => escape color.code
    | none => []

namespace Output

/-- Writes a piece; a style ends with the piece. -/
def renderPiece (colored : Bool) (p : Piece) : Text :=
  match p.style with
  | some style => if colored then style.escapes ++ p.text ++ escape 0 else p.text
  | none => p.text

/-- Writes output with or without styles. -/
def render (colored : Bool) (out : Output) : Text := out.flatMap (renderPiece colored)

/-- Without colour, output is the text of its pieces. -/
theorem render_plain (out : Output) : render false out = out.flatMap (·.text) := by
  have h : renderPiece false = (·.text) := by
    funext p
    cases h : p.style <;> simp [renderPiece, h]
  rw [render, h]

end Output

end LineScript
