import LineScript.Text.Blank

/-!
# Arguments

A body is split into fields from the left. Under a limit the last argument takes whatever is
left, blanks and all, so a single argument is the body itself.
-/

namespace LineScript

/-- Splits a body into at most `limit` arguments; `none` sets no limit. -/
def splitArguments (limit : Option Nat) (body : Text) : List Text :=
  if _h : body = [] then []
  else match limit with
    | some 0 => []
    | some 1 => [body]
    | limit => (Text.cutField body).1 :: splitArguments (limit.map (· - 1)) (Text.cutField body).2
termination_by body.length
decreasing_by exact Text.length_cutField_lt _h

/-- The arguments of one command, by position. -/
structure Arguments where
  items : List Text
deriving DecidableEq, Repr, Inhabited

namespace Arguments

/-- The arguments of a body under a limit. -/
def ofBody (limit : Option Nat) (body : Text) : Arguments := ⟨splitArguments limit body⟩

/-- How many there are. -/
def size (args : Arguments) : Nat := args.items.length

/-- The argument at a position without one final line feed; empty beyond the last. -/
def get (args : Arguments) (i : Nat) : Text := Text.stripNewline (args.items[i]?.getD [])

end Arguments

/-- The first two arguments; the second takes the rest. -/
def twoArguments (body : Text) : Text × Text :=
  let args := Arguments.ofBody (some 2) body
  (args.get 0, args.get 1)

/-- The first three arguments; the third takes the rest. -/
def threeArguments (body : Text) : Text × Text × Text :=
  let args := Arguments.ofBody (some 3) body
  (args.get 0, args.get 1, args.get 2)

end LineScript
