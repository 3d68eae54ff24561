/-!
# Script text

Text is a list of characters, so that every operation on it is a recursion on the data.
The operations here cut text at line feeds and nowhere else; blanks are the business of
`LineScript.Text.Blank`.

* `pieces` cuts a list behind every separator and loses nothing (`flatten_pieces`).
* `stripNewline` removes one final line feed.
* `indented` moves every line but the first one tab to the right.
-/

namespace LineScript

/-- Script text, one character after another. -/
abbrev Text := List Char

/-- Script text as it is stored. -/
abbrev Bytes := List UInt8

namespace Text

/-! ## Cutting -/

/-- Cuts a list behind every `sep`. Each piece keeps its separator; only the last may lack one. -/
def pieces {α : Type} [DecidableEq α] (sep : α) : List α → List (List α)
  | [] => []
  | a :: as =>
      if a = sep then [a] :: pieces sep as
      else match pieces sep as with
        | [] => [[a]]
        | p :: ps => (a :: p) :: ps

/-- Cutting loses nothing. -/
theorem flatten_pieces {α : Type} [DecidableEq α] (sep : α) (as : List α) :
    (pieces sep as).flatten = as := by
  induction as with
  | nil => rfl
  | cons a as ih =>
      unfold pieces
      by_cases h : a = sep
      · simp [h, ih]
      · rw [if_neg h]
        cases hp : pieces sep as with
        | nil => rw [hp] at ih; simp at ih; simp [← ih]
        | cons p ps => rw [hp] at ih; simp at ih; simp [ih]

/-- The physical lines of a text, each with its line feed. -/
def physicalLines (t : Text) : List Text := pieces '\n' t

/-- Everything before the first line feed, and everything after it if there is one. -/
def cutLine (t : Text) : Text × Option Text :=
  match t.dropWhile (· ≠ '\n') with
  | [] => (t, none)
  | _ :: rest => (t.takeWhile (· ≠ '\n'), some rest)

/-- Removes one final line feed. -/
def stripNewline (t : Text) : Text :=
  if t.getLast? = some '\n' then t.dropLast else t

/-- Removes all `c` at the end. -/
def dropFinal (c : Char) (t : Text) : Text := (t.reverse.dropWhile (· = c)).reverse

/-! ## Joining -/

/-- Puts a tab behind every line feed. -/
def indented (t : Text) : Text :=
  t.flatMap fun c => if c = '\n' then ['\n', '\t'] else [c]

/-- Joins parts with a separator between them. -/
def join (sep : Text) (parts : List Text) : Text := sep.intercalate parts

/-- A number in decimal digits. -/
def ofNat (n : Nat) : Text := Nat.toDigits 10 n

/-! ## Order -/

/-- Order by code point, the shorter of two equal starts first. -/
def le : Text → Text → Bool
  | [], _ => true
  | _ :: _, [] => false
  | a :: as, b :: bs => if a = b then le as bs else a.toNat < b.toNat

/-- Whether `part` occurs in a text. -/
def hasPart (part : Text) : Text → Bool
  | [] => part.isEmpty
  | c :: cs => part.isPrefixOf (c :: cs) || hasPart part cs

end Text

/-! ## Sets of code points -/

/-- Closed ranges of code points, ascending and disjoint, as the tables of Unicode properties give
    them. -/
abbrev Ranges := List (Nat × Nat)

/-- Whether a code point lies in one of the ranges; the search stops behind it. -/
def Ranges.has (n : Nat) : Ranges → Bool
  | [] => false
  | (lo, hi) :: rest => if n < lo then false else n ≤ hi || Ranges.has n rest

end LineScript
