import LineScript.Pattern.Class

/-!
# Reading written patterns

`Pattern.read` turns the written form of a pattern into a `Pattern`, or says why it is refused.
Flags are settled while reading: they hold from where they are switched to the end of the group.
Whether repetition is greedy makes no difference to whether a text matches, so it is read and
dropped.
-/

namespace LineScript.Pattern

/-- A part of a sequence, and how deep groups, repetitions and classes nest in it. Switching flags
    is a part that stands for nothing and cannot be repeated. -/
structure Part where
  pattern : Option Pattern
  depth : Nat := 0
deriving Repr, Inhabited

/-- A group whose end has not been met: the finished alternatives around it, the parts in front of
    it, the latest first, and the flags to go back to. -/
structure OpenGroup where
  alternatives : List (Nested Pattern)
  parts : List Part
  flags : Flags
deriving Repr, Inhabited

/-- What has been read so far: the groups around, innermost first; the finished alternatives of the
    group and the parts of the alternative being read, the latest first; the flags that hold, and
    the names of groups. -/
structure Reading where
  groups : List OpenGroup := []
  alternatives : List (Nested Pattern) := []
  parts : List Part := []
  flags : Flags := {}
  names : List Text := []
deriving Repr, Inhabited

/-! ## Putting parts together -/

/-- The sequence of parts, the latest first. -/
def sequence : List Part → Nested Pattern
  | [] => ⟨.empty, 0⟩
  | [part] => ⟨part.pattern.getD .empty, part.depth⟩
  | parts =>
      ⟨(parts.filterMap (·.pattern)).foldl (fun p part => .seq part p) .empty,
        1 + parts.foldl (fun d part => max part.depth d) 0⟩

/-- The choice between alternatives, the latest first. -/
def choice : List (Nested Pattern) → Nested Pattern
  | [] => ⟨.empty, 0⟩
  | [p] => p
  | p :: ps =>
      ⟨ps.foldl (fun q a => .alt a.value q) p.value,
        1 + ps.foldl (fun d a => max a.depth d) p.depth⟩

namespace Reading

/-- Everything inside the innermost group. -/
def inside (r : Reading) : Nested Pattern := choice (sequence r.parts :: r.alternatives)

/-- Adds a part. -/
def add (r : Reading) (pattern : Pattern) (depth : Nat) : Reading :=
  { r with parts := ⟨some pattern, depth⟩ :: r.parts }

/-- Repeats the last part. -/
def repeatLast (r : Reading) (min : Nat) (max : Option Nat) : Except ReadError Reading :=
  match r.parts with
  | ⟨some p, depth⟩ :: parts =>
      .ok { r with parts := ⟨some (.rep p min max), depth + 1⟩ :: parts }
  | _ => .error .nothingToRepeat

/-- Enters a group in which these flags hold. -/
def enter (r : Reading) (inner : Flags) : Reading :=
  { r with
    groups := ⟨r.alternatives, r.parts, r.flags⟩ :: r.groups
    alternatives := [], parts := [], flags := inner }

/-- Leaves the innermost group. -/
def leave (r : Reading) : Except ReadError Reading :=
  match r.groups with
  | [] => .error .unopenedGroup
  | group :: groups =>
      let whole := r.inside
      .ok { r with
        groups, alternatives := group.alternatives, flags := group.flags
        parts := ⟨some whole.value, whole.depth + 1⟩ :: group.parts }

end Reading

/-! ## Counts -/

/-- Reads decimal digits with what does not count between them. -/
def readDigits (fl : Flags) (digits : Text) : Nat → Text → Text × Text
  | 0, t => (digits.reverse, t)
  | fuel + 1, t =>
      match t with
      | c :: rest =>
          if c.isDigit then readDigits fl (c :: digits) fuel (fl.skip rest) else (digits.reverse, t)
      | [] => (digits.reverse, t)

/-- Reads a count with blanks around it. -/
def readCount (fl : Flags) (t : Text) : Except ReadError (Nat × Text) :=
  let t := t.dropWhile isBlank
  let (digits, t) := readDigits fl [] (t.length + 1) t
  let n := digits.foldl (fun n c => n * 10 + (c.toNat - 48)) 0
  if digits.isEmpty || n ≥ Nat.pow 2 32 then .error .badCount
  else .ok (n, fl.skip (t.dropWhile isBlank))

/-- Drops one question mark, which makes a repetition lazy. -/
def dropLazy : Text → Text
  | '?' :: t => t
  | t => t

/-- Reads the counts of a repetition behind the opening brace. -/
def readCounts (fl : Flags) (t : Text) : Except ReadError (Nat × Option Nat × Text) := do
  let (min, t) ← readCount fl (fl.skip t)
  let (max, t) ← match t with
    | ',' :: t =>
        match fl.skip t with
        | '\x7d' :: t => .ok (none, '\x7d' :: t)
        | t => do
            let (max, t) ← readCount fl t
            .ok (some max, t)
    | t => .ok (some min, t)
  match t with
  | '\x7d' :: t =>
      if max.all (min ≤ ·) then .ok (min, max, dropLazy (fl.skip t)) else .error .badCount
  | _ => .error .unclosedCount

/-! ## Groups -/

/-- Reads flags up to a colon or a closing parenthesis, and tells whether it was a colon. -/
def readFlags (fl : Flags) (seen : List Char) (negated dangling : Bool) :
    Text → Except ReadError (Flags × Bool × Text)
  | [] => .error .badFlag
  | c :: t =>
      if c = ':' ∨ c = ')' then
        if dangling then .error .badFlag
        else if c = ')' ∧ seen = [] then .error .nothingToRepeat
        else .ok (fl, c = ':', t)
      else if seen.contains c then .error .badFlag
      else if c = '-' then readFlags fl (c :: seen) true true t
      else match fl.set? c (!negated) with
        | some fl => readFlags fl (c :: seen) negated false t
        | none => .error .badFlag

/-- Whether a character may stand in the name of a group. -/
def isGroupNameChar (first : Bool) (c : Char) : Bool :=
  let isDigit := Ranges.has c.toNat digitRanges
  if first then c == '_' || (c.toNat != 0x5F && Ranges.has c.toNat wordRanges && !isDigit)
  else Ranges.has c.toNat wordRanges || c == '.' || c == '[' || c == ']'

/-- Reads the name of a group up to its closing bracket. -/
def readGroupName (names : List Text) (t : Text) : Except ReadError (Text × Text) :=
  match t.takeWhile (· ≠ '>'), t.dropWhile (· ≠ '>') with
  | c :: name, _ :: rest =>
      if !(isGroupNameChar true c && name.all (isGroupNameChar false)) then .error .badGroupName
      else if names.contains (c :: name) then .error .duplicateGroupName
      else .ok (c :: name, rest)
  | _, _ => .error .badGroupName

/-- Reads what follows an opening parenthesis, up to the inside of the group. -/
def readGroup (r : Reading) (t : Text) : Except ReadError (Reading × Text) :=
  let named := fun (t : Text) => do
    let (name, rest) ← readGroupName r.names t
    return ({ r.enter r.flags with names := name :: r.names }, rest)
  match r.flags.skip t with
  | '?' :: '=' :: _ => .error .lookAround
  | '?' :: '!' :: _ => .error .lookAround
  | '?' :: '<' :: '=' :: _ => .error .lookAround
  | '?' :: '<' :: '!' :: _ => .error .lookAround
  | '?' :: 'P' :: '<' :: t => named t
  | '?' :: '<' :: t => named t
  | '?' :: [] => .error .unclosedGroup
  | '?' :: t => do
      let (fl, opens, rest) ← readFlags r.flags [] false false t
      if opens then .ok (r.enter fl, rest)
      else .ok ({ r with flags := fl, parts := ⟨none, 0⟩ :: r.parts }, rest)
  | t => .ok (r.enter r.flags, t)

/-! ## The whole pattern -/

/-- Takes one character of a pattern, and what belongs to it, into account. -/
def readStep (r : Reading) (c : Char) (t : Text) : Except ReadError (Reading × Text) :=
  let fl := r.flags
  match c with
  | '(' => readGroup r t
  | ')' => do return (← r.leave, t)
  | '|' => .ok ({ r with alternatives := sequence r.parts :: r.alternatives, parts := [] }, t)
  | '[' => do
      let (s, rest) ← readClass fl t
      return (r.add (.one s.value) s.depth, rest)
  | '?' => do return (← r.repeatLast 0 (some 1), dropLazy t)
  | '*' => do return (← r.repeatLast 0 none, dropLazy t)
  | '+' => do return (← r.repeatLast 1 none, dropLazy t)
  | '\x7b' => do
      let (min, max, rest) ← readCounts fl t
      return (← r.repeatLast min max, rest)
  | '\\' => do
      let (p, rest) ← readEscape fl t
      return (r.add (p.toPattern fl) 0, rest)
  | '.' => if fl.unicode then .ok (r.add (.one fl.dot) 0, t) else .error .notText
  | '^' => .ok (r.add (.look (if fl.multiLine then .startLine fl.crlf else .startText)) 0, t)
  | '$' => .ok (r.add (.look (if fl.multiLine then .endLine fl.crlf else .endText)) 0, t)
  | c => .ok (r.add ((Primitive.literal c.toNat).toPattern fl) 0, t)

/-- How deep a pattern may nest. -/
def depthLimit : Nat := 250

/-- Reads the rest of a pattern in at most `fuel` steps. -/
def readRest : Nat → Reading → Text → Except ReadError Pattern
  | 0, _, _ => .error .unclosedGroup
  | fuel + 1, r, t =>
      match r.flags.skip t with
      | [] =>
          let whole := r.inside
          if !r.groups.isEmpty then .error .unclosedGroup
          else if whole.depth > depthLimit then .error .tooDeep
          else .ok whole.value
      | c :: t => do
          let (r, rest) ← readStep r c t
          readRest fuel r rest

/-- Reads a written pattern. -/
def read (t : Text) : Except ReadError Pattern := readRest (t.length + 1) {} t

end LineScript.Pattern
