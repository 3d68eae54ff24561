import LineScript.Script.Expression
import LineScript.Source.Line

/-!
# Reading expressions

A reader takes expressions off a stream one at a time. Comment lines are collected until a
blank line, a command or the end of input; a command takes every directly following line that
starts with a tab. The first error is final: it is reported by every later `read`.

* `Reader.read` gives the next expression, the end, or the error.
* `Reader.next` is the same as an iteration, in which the error comes once.
* `readAll` gives all expressions and the error that stopped them, if any.
-/

namespace LineScript

/-- What is wrong with a line: it starts with a space, or with a tab and continues no command; it is
    not UTF-8; or it could not be read. -/
inductive Flaw where
  | leadingBlank
  | undecodable
  | unreadable (error : AccessError)
deriving DecidableEq, Repr, Inhabited

/-- The text of a flaw. -/
def Flaw.message : Flaw → String
  | .leadingBlank => "unexpected whitespace at start of line"
  | .undecodable => "line is not valid UTF-8"
  | .unreadable error => error.message

/-- The failure of the file layer behind a flaw. -/
def Flaw.access : Flaw → Option AccessError
  | .unreadable error => some error
  | _ => none

/-- A flaw and the number of the line that has it. -/
structure SyntaxError where
  line : Nat
  flaw : Flaw
deriving DecidableEq, Repr, Inhabited

/-- The text of a line, or its flaw. -/
def Line.read : Line → Except Flaw Text
  | .text chars => .ok chars
  | .undecodable _ => .error .undecodable
  | .broken _ error => .error (.unreadable error)
  | .failure error => .error (.unreadable error)

/-- What one step of reading gives, with the lines still ahead and the number of lines read. -/
structure Reading (α : Type) where
  result : Except SyntaxError α
  ahead : Stream
  line : Nat

/-- Takes the continuation lines of a command, of which line `n` was the last so far, and joins
    them without their tabs. -/
def readContinuation (n : Nat) : Stream → Reading Text
  | [] => ⟨.ok [], [], n⟩
  | l :: ahead =>
      match l.startsWithTab with
      | .error error => ⟨.error ⟨n, .unreadable error⟩, l :: ahead, n⟩
      | .ok false => ⟨.ok [], l :: ahead, n⟩
      | .ok true =>
          match l.read with
          | .error flaw => ⟨.error ⟨n + 1, flaw⟩, ahead, n + 1⟩
          | .ok chars =>
              let more := readContinuation (n + 1) ahead
              { more with result := more.result.map (chars.tail ++ ·) }

/-- Takes one expression, of which the comment lines so far are `comment` and line `n` was read
    last. Comment lines at the end of input make a blank expression; it stands on the line after
    them, or on the last of them if that has no line feed. -/
def readExpression (n : Nat) (comment : Text) : Stream → Reading (Option Expression)
  | [] =>
      if comment = [] then ⟨.ok none, [], n + 1⟩
      else
        let line := if comment.getLast? = some '\n' then n + 1 else n
        ⟨.ok (some { line, comment }), [], n + 1⟩
  | l :: ahead =>
      match l.read with
      | .error flaw => ⟨.error ⟨n + 1, flaw⟩, ahead, n + 1⟩
      | .ok chars =>
          match chars.head? with
          | some '\n' => ⟨.ok (some { line := n + 1, comment }), ahead, n + 1⟩
          | some '#' => readExpression (n + 1) (comment ++ chars) ahead
          | some ' ' => ⟨.error ⟨n + 1, .leadingBlank⟩, ahead, n + 1⟩
          | some '\t' => ⟨.error ⟨n + 1, .leadingBlank⟩, ahead, n + 1⟩
          | _ =>
              let more := readContinuation (n + 1) ahead
              { more with
                result := more.result.map fun tail =>
                  some (.ofText (n + 1) comment (chars ++ tail)) }

/-! ## The reader -/

/-- A stream partly read: the lines ahead, the number of the line read last, and the error that
    ended reading. -/
structure Reader where
  ahead : Stream
  line : Nat := 0
  failed : Option SyntaxError := none
deriving DecidableEq, Repr, Inhabited

namespace Reader

/-- A reader at the start of a stream. -/
def ofStream (s : Stream) : Reader := { ahead := s }

/-- A reader at the start of a text. -/
def ofText (t : Text) : Reader := ofStream (Stream.ofText t)

/-- The next expression, `none` at the end of input, or the error that ends the stream. -/
def read (r : Reader) : Except SyntaxError (Option Expression) × Reader :=
  match r.failed with
  | some error => (.error error, r)
  | none =>
      let step := readExpression r.line [] r.ahead
      let failed := match step.result with
        | .error error => some error
        | .ok _ => none
      (step.result, { ahead := step.ahead, line := step.line, failed })

/-- The next expression as an iteration: an error ends it after it has been given once. -/
def next (r : Reader) : Option (Except SyntaxError Expression) × Reader :=
  match r.failed with
  | some _ => (none, r)
  | none =>
      match r.read with
      | (.error error, r) => (some (.error error), r)
      | (.ok none, r) => (none, r)
      | (.ok (some e), r) => (some (.ok e), r)

end Reader

/-! ## Whole streams -/

/-- No line comes back from a continuation. -/
theorem length_ahead_readContinuation_le (n : Nat) (s : Stream) :
    (readContinuation n s).ahead.length ≤ s.length := by
  induction s generalizing n with
  | nil => simp [readContinuation]
  | cons l ahead ih =>
      unfold readContinuation
      split
      · simp
      · simp
      · split
        · simp
        · exact Nat.le_succ_of_le (ih (n + 1))

/-- Every expression takes a line off the stream, or ends it. -/
theorem length_ahead_readExpression_le (n : Nat) (comment : Text) (s : Stream) :
    (readExpression n comment s).ahead.length ≤ s.length - 1 := by
  induction s generalizing n comment with
  | nil => simp only [readExpression]; split <;> simp
  | cons l ahead ih =>
      unfold readExpression
      split
      · simp
      · split
        · simp
        · have := ih (n + 1) (comment ++ ‹Text›)
          simp only [List.length_cons]
          omega
        · simp
        · simp
        · have := length_ahead_readContinuation_le (n + 1) ahead
          simp only [List.length_cons]
          omega

/-- An expression takes a line off its stream. -/
theorem Reader.length_ahead_read_lt {r r' : Reader} {e : Expression}
    (h : r.read = (.ok (some e), r')) : r'.ahead.length < r.ahead.length := by
  unfold Reader.read at h
  split at h
  · simp at h
  · simp only [Prod.mk.injEq] at h
    obtain ⟨hresult, rfl⟩ := h
    have hle := length_ahead_readExpression_le r.line [] r.ahead
    cases hahead : r.ahead with
    | nil => rw [hahead] at hresult; simp [readExpression] at hresult
    | cons l ls =>
        rw [hahead] at hle
        simp only [List.length_cons] at hle ⊢
        omega

/-- All expressions from line `n` on, and the error that stops them. -/
def readFrom (n : Nat) (s : Stream) : List Expression × Option SyntaxError :=
  match s with
  | [] => ([], none)
  | l :: rest =>
      let step := readExpression n [] (l :: rest)
      match step.result with
      | .error error => ([], some error)
      | .ok none => ([], none)
      | .ok (some e) =>
          let more := readFrom step.line step.ahead
          (e :: more.1, more.2)
termination_by s.length
decreasing_by
  have := length_ahead_readExpression_le n [] (l :: rest)
  simp only [List.length_cons] at this ⊢
  omega

/-- All expressions of a stream, and the error that stops them. -/
def readAll (s : Stream) : List Expression × Option SyntaxError := readFrom 0 s

/-- All expressions of a text, or its first error. -/
def parse (t : Text) : Except SyntaxError (List Expression) :=
  match readAll (Stream.ofText t) with
  | (es, none) => .ok es
  | (_, some error) => .error error

end LineScript
