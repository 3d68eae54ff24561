import LineScript.Pattern.CaseTable
import LineScript.Pattern.WordTable
import LineScript.Text.Blank

/-!
# Sets of characters

A set is built from ranges and from the classes of Unicode by the usual operations. Folding a set
adds the case forms of its members.
-/

namespace LineScript.Pattern

/-- A set of characters, given by their code points: ascending ranges, the blanks, what can be made
    of other sets, and the case forms of the members of one. -/
inductive CharSet where
  | ranges (rs : Ranges)
  | blank
  | union (a b : CharSet)
  | inter (a b : CharSet)
  | diff (a b : CharSet)
  | symDiff (a b : CharSet)
  | compl (a : CharSet)
  | folded (a : CharSet)
deriving DecidableEq, Repr, Inhabited

namespace CharSet

/-- Whether a code point is a member. -/
def has : CharSet → Nat → Bool
  | .ranges rs, n => Ranges.has n rs
  | .blank, n => isBlank (Char.ofNat n)
  | .union a b, n => a.has n || b.has n
  | .inter a b, n => a.has n && b.has n
  | .diff a b, n => a.has n && !b.has n
  | .symDiff a b, n => a.has n != b.has n
  | .compl a, n => !a.has n
  | .folded a, n => (caseForms n).any a.has

/-- No character. -/
def none : CharSet := .ranges []

/-- One character. -/
def single (n : Nat) : CharSet := .ranges [(n, n)]

/-- The decimal digits, of all scripts or of ASCII. -/
def digit (unicode : Bool) : CharSet := .ranges (if unicode then digitRanges else [(0x30, 0x39)])

/-- Ranges of the ASCII word characters. -/
def asciiWord : Ranges := [(0x30, 0x39), (0x41, 0x5A), (0x5F, 0x5F), (0x61, 0x7A)]

/-- The word characters, of all scripts or of ASCII. -/
def word (unicode : Bool) : CharSet := .ranges (if unicode then wordRanges else asciiWord)

/-- The blanks, of all scripts or of ASCII. -/
def space (unicode : Bool) : CharSet :=
  if unicode then .blank else .ranges [(0x09, 0x0D), (0x20, 0x20)]

/-- The classes of ASCII characters that have a name between brackets and colons. -/
def named? (name : Text) : Option CharSet :=
  match String.ofList name with
  | "alnum" => some (.ranges [(0x30, 0x39), (0x41, 0x5A), (0x61, 0x7A)])
  | "alpha" => some (.ranges [(0x41, 0x5A), (0x61, 0x7A)])
  | "ascii" => some (.ranges [(0x00, 0x7F)])
  | "blank" => some (.ranges [(0x09, 0x09), (0x20, 0x20)])
  | "cntrl" => some (.ranges [(0x00, 0x1F), (0x7F, 0x7F)])
  | "digit" => some (.ranges [(0x30, 0x39)])
  | "graph" => some (.ranges [(0x21, 0x7E)])
  | "lower" => some (.ranges [(0x61, 0x7A)])
  | "print" => some (.ranges [(0x20, 0x7E)])
  | "punct" => some (.ranges [(0x21, 0x2F), (0x3A, 0x40), (0x5B, 0x60), (0x7B, 0x7E)])
  | "space" => some (.ranges [(0x09, 0x0D), (0x20, 0x20)])
  | "upper" => some (.ranges [(0x41, 0x5A)])
  | "word" => some (.ranges asciiWord)
  | "xdigit" => some (.ranges [(0x30, 0x39), (0x41, 0x46), (0x61, 0x66)])
  | _ => Option.none

end CharSet

end LineScript.Pattern
