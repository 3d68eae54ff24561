import LineScript.Pattern.Basic

/-!
# Matching

A mask tells for every position of a text, from before the first character to behind the last,
whether it has been reached. `Pattern.ends` takes the positions where a pattern may start to those
where it may end, all at once; a text matches when some position is reached from any start. The
time is bounded by the size of the pattern and of the text, whatever is repeated.
-/

namespace LineScript

namespace Pattern

/-- Which positions of a text are reached. -/
abbrev Mask := List Bool

namespace Mask

/-- Positions of either mask. -/
def union (a b : Mask) : Mask := a.zipWith (· || ·) b

/-- Positions of the first mask alone. -/
def diff (a b : Mask) : Mask := a.zipWith (fun x y => x && !y) b

/-- Whether a position is reached. -/
def any (m : Mask) : Bool := m.contains true

end Mask

/-- Whether the character beside a position is a word character. -/
def isWordAt (unicode : Bool) : Option Char → Bool
  | some c => (CharSet.word unicode).has c.toNat
  | none => false

/-- Whether a condition holds between two characters, which are missing at the ends. -/
def Look.holds : Look → Option Char → Option Char → Bool
  | .startText, before, _ => before.isNone
  | .endText, _, after => after.isNone
  | .startLine false, before, _ => before.isNone || before == some '\n'
  | .endLine false, _, after => after.isNone || after == some '\n'
  | .startLine true, before, after =>
      before.isNone || before == some '\n' || (before == some '\r' && after != some '\n')
  | .endLine true, before, after =>
      after.isNone || after == some '\r' || (after == some '\n' && before != some '\r')
  | .boundary u, before, after => isWordAt u before != isWordAt u after
  | .noBoundary u, before, after => isWordAt u before == isWordAt u after
  | .wordStart u, before, after => !isWordAt u before && isWordAt u after
  | .wordEnd u, before, after => isWordAt u before && !isWordAt u after
  | .wordStartHalf u, before, _ => !isWordAt u before
  | .wordEndHalf u, _, after => !isWordAt u after

/-- Keeps the positions where a condition holds. -/
def keepWhere (l : Look) (before : Option Char) : Text → Mask → Mask
  | _, [] => []
  | [], b :: _ => [b && l.holds before none]
  | c :: cs, b :: m => (b && l.holds before (some c)) :: keepWhere l (some c) cs m

/-- Moves every position over one character of a set. -/
def moveOver (set : CharSet) (t : Text) (m : Mask) : Mask :=
  false :: t.zipWith (fun c b => b && set.has c.toNat) m

/-- Applies a step `n` times, or until nothing changes. -/
def iterate (f : Mask → Mask) : Nat → Mask → Mask
  | 0, m => m
  | n + 1, m =>
      let next := f m
      if next = m then m else iterate f n next

/-- All positions reached by at most `n` further steps from `fresh`; `reached` are known. -/
def spread (f : Mask → Mask) : Nat → Mask → Mask → Mask
  | 0, _, reached => reached
  | n + 1, fresh, reached =>
      let next := (f fresh).diff reached
      if next.any then spread f n next (reached.union next) else reached

/-- Where a pattern may end, from where it may start. -/
def ends (t : Text) : Pattern → Mask → Mask
  | .empty, m => m
  | .one set, m => moveOver set t m
  | .look l, m => keepWhere l none t m
  | .seq a b, m => ends t b (ends t a m)
  | .alt a b, m => (ends t a m).union (ends t b m)
  | .rep a min max, m =>
      let start := iterate (ends t a) min m
      match max with
      | some max => spread (ends t a) (max - min) start start
      | none => spread (ends t a) (t.length + 1) start start

/-- Whether a pattern matches some part of a text. -/
def matchesIn (p : Pattern) (t : Text) : Bool :=
  (ends t p (List.replicate (t.length + 1) true)).any

end Pattern

end LineScript
