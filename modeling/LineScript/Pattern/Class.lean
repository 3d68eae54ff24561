import LineScript.Pattern.Escape

/-!
# Bracketed classes of written patterns

A class lists characters, ranges, named classes and further classes in brackets; a caret in front
takes its complement, and `&&`, `--` and `~~` combine what stands on their left with what stands
on their right.
-/

namespace LineScript.Pattern

/-- A thing read, and how deep brackets nest in it. -/
structure Nested (α : Type) where
  value : α
  depth : Nat := 0
deriving Repr, Inhabited

/-- How two parts of a class are combined. -/
inductive SetOp where
  | inter
  | diff
  | symDiff
deriving DecidableEq, Repr, Inhabited

/-- The set of two combined parts. -/
def SetOp.apply : SetOp → CharSet → CharSet → CharSet
  | .inter, a, b => .inter a b
  | .diff, a, b => .diff a b
  | .symDiff, a, b => .symDiff a b

/-- All members of a list of items, the latest first. -/
def unionOf : List (Nested CharSet) → Nested CharSet
  | [] => ⟨.none, 0⟩
  | [item] => item
  | items =>
      ⟨items.foldl (fun s item => .union item.value s) .none,
        1 + items.foldl (fun d item => max item.depth d) 0⟩

/-- Combines what is left of an operator with what is right of it. -/
def combine (fl : Flags) (left : Option (SetOp × Nested CharSet)) (right : Nested CharSet) :
    Nested CharSet :=
  match left with
  | none => right
  | some (op, left) =>
      ⟨op.apply (fl.fold left.value) (fl.fold right.value), 1 + max left.depth right.depth⟩

/-- A named class behind an opening bracket inside a class, and what follows it. -/
def readNamedClass? (t : Text) : Option (CharSet × Text) :=
  match t with
  | ':' :: t =>
      let (negated, t) := match t with
        | '^' :: t => (true, t)
        | t => (false, t)
      match t.dropWhile (· ≠ ':') with
      | ':' :: ']' :: rest =>
          (CharSet.named? (t.takeWhile (· ≠ ':'))).map fun s =>
            (if negated then .compl s else s, rest)
      | _ => none
  | _ => none

/-- Hyphens at the start of a class, which stand for themselves. -/
def readHyphens (fl : Flags) (items : List (Nested CharSet)) : Nat → Text →
    Except ReadError (List (Nested CharSet) × Text)
  | 0, _ => .error .unclosedClass
  | fuel + 1, t =>
      match t with
      | '-' :: t => readHyphens fl (⟨.single 0x2D, 0⟩ :: items) fuel (fl.skip t)
      | [] => .error .unclosedClass
      | t => .ok (items, t)

/-- Reads the start of a class behind its bracket: whether it is a complement, and the hyphens or
    the one closing bracket that stand for themselves there. -/
def openClass (fl : Flags) (t : Text) :
    Except ReadError (Bool × List (Nested CharSet) × Text) := do
  let (negated, t) := match fl.skip t with
    | '^' :: t => (true, fl.skip t)
    | t => (false, t)
  let (items, t) ← readHyphens fl [] (t.length + 1) t
  match items, t with
  | [], ']' :: t =>
      match fl.skip t with
      | [] => .error .unclosedClass
      | t => .ok (negated, [⟨.single 0x5D, 0⟩], t)
  | items, t => .ok (negated, items, t)

/-- Reads one character or escape of a class. -/
def readClassAtom (fl : Flags) : Text → Except ReadError (Primitive × Text)
  | [] => .error .unclosedClass
  | '\\' :: t => readEscape fl t
  | c :: t =>
      if !fl.unicode && c.toNat ≥ 0x80 then .error .badClassItem else .ok (.literal c.toNat, t)

/-- Reads one character, escape or range of a class. -/
def readClassItem (fl : Flags) (t : Text) : Except ReadError (CharSet × Text) := do
  let (first, t) ← readClassAtom fl t
  match fl.skip t with
  | [] => .error .unclosedClass
  | '-' :: after =>
      match (fl.skip after).head? with
      | none => .error .unclosedClass
      | some ']' => return (← first.toSet, '-' :: after)
      | some '-' => return (← first.toSet, '-' :: after)
      | some _ => do
          let (last, rest) ← readClassAtom fl (fl.skip after)
          match first, last with
          | .literal lo, .literal hi =>
              if lo ≤ hi then .ok (.ranges [(lo, hi)], rest) else .error .reversedRange
          | _, _ => .error .badClassItem
  | t => return (← first.toSet, t)

/-- Reads the items of a class up to its closing bracket, in at most `fuel` steps. -/
def readClassItems (fl : Flags) : Nat → Bool → Option (SetOp × Nested CharSet) →
    List (Nested CharSet) → Text → Except ReadError (Nested CharSet × Text)
  | 0, _, _, _, _ => .error .unclosedClass
  | fuel + 1, negated, left, items, t =>
      let combined := fun (op : SetOp) => some (op, combine fl left (unionOf items))
      match fl.skip t with
      | [] => .error .unclosedClass
      | '[' :: t =>
          match readNamedClass? t with
          | some (s, rest) => readClassItems fl fuel negated left (⟨s, 0⟩ :: items) rest
          | none => do
              let (inside, first, rest) ← openClass fl t
              let (nested, rest) ← readClassItems fl fuel inside none first rest
              readClassItems fl fuel negated left (nested :: items) rest
      | ']' :: t =>
          let whole := combine fl left (unionOf items)
          let s := fl.fold whole.value
          if negated && !fl.unicode then .error .notText
          else .ok (⟨if negated then .compl s else s, 1 + whole.depth⟩, t)
      | '&' :: '&' :: t => readClassItems fl fuel negated (combined .inter) [] t
      | '-' :: '-' :: t => readClassItems fl fuel negated (combined .diff) [] t
      | '~' :: '~' :: t => readClassItems fl fuel negated (combined .symDiff) [] t
      | t => do
          let (s, rest) ← readClassItem fl t
          readClassItems fl fuel negated left (⟨s, 0⟩ :: items) rest

/-- Reads a class behind its opening bracket. -/
def readClass (fl : Flags) (t : Text) : Except ReadError (Nested CharSet × Text) := do
  let (negated, items, rest) ← openClass fl t
  readClassItems fl (rest.length + 1) negated none items rest

end LineScript.Pattern
