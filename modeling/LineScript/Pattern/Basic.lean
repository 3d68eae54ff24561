import LineScript.Pattern.CharSet

/-!
# Patterns

A pattern describes texts: single characters from a set, conditions on a position, sequences,
alternatives and repetition. `Pattern.Match` says where a pattern can end and `Pattern.Read`
reads its written form.
-/

namespace LineScript

namespace Pattern

/-- A condition on the characters around a position. With `crlf` a carriage return ends a line too.
    A boundary lies between a word character and something else; the half conditions only ask that
    there is no word character in front, or none behind. -/
inductive Look where
  | startText
  | endText
  | startLine (crlf : Bool)
  | endLine (crlf : Bool)
  | boundary (unicode : Bool)
  | noBoundary (unicode : Bool)
  | wordStart (unicode : Bool)
  | wordEnd (unicode : Bool)
  | wordStartHalf (unicode : Bool)
  | wordEndHalf (unicode : Bool)
deriving DecidableEq, Repr, Inhabited

end Pattern

/-- A pattern: the empty text, one character of a set, the empty text where a condition holds, one
    pattern and then another, either of two patterns, or a pattern at least `min` times, and at most
    `max` times if there is such a limit. -/
inductive Pattern where
  | empty
  | one (set : Pattern.CharSet)
  | look (l : Pattern.Look)
  | seq (a b : Pattern)
  | alt (a b : Pattern)
  | rep (a : Pattern) (min : Nat) (max : Option Nat)
deriving DecidableEq, Repr, Inhabited

end LineScript
