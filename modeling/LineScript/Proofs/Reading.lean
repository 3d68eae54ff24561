import LineScript.Proofs.Lines
import LineScript.Script.Reader

/-!
# Reading

How expressions come off a stream, line by line and all at once.

* `readExpression_newline` to `readExpression_command`: what the first character of a line decides.
* `readExpression_indented`: a command with its continuation lines, in front of any other line.
* `Reader.rest`: what a reader would give if it were read to its end, and what each outcome of
  `Reader.read` leaves of it.
* `Reader.drain`: reading to the end or an error, one read after another.
-/

namespace LineScript

/-! ## One line -/

section Lines

variable (n : Nat) (comment chars : Text) (ahead : Stream)

/-- A line feed at the start of a line makes it a blank line. -/
theorem readExpression_newline :
    readExpression n comment (.text ('\n' :: chars) :: ahead) =
      ⟨.ok (some { line := n + 1, comment }), ahead, n + 1⟩ := rfl

/-- A number sign at the start of a line makes it a comment. -/
theorem readExpression_comment :
    readExpression n comment (.text ('#' :: chars) :: ahead) =
      readExpression (n + 1) (comment ++ '#' :: chars) ahead := rfl

/-- A space at the start of a line is an error. -/
theorem readExpression_space :
    readExpression n comment (.text (' ' :: chars) :: ahead) =
      ⟨.error ⟨n + 1, .leadingBlank⟩, ahead, n + 1⟩ := rfl

/-- Any other character but a tab starts a command. -/
theorem readExpression_command {c : Char} (hnewline : c ≠ '\n') (hcomment : c ≠ '#')
    (hspace : c ≠ ' ') (htab : c ≠ '\t') :
    readExpression n comment (.text (c :: chars) :: ahead) =
      { readContinuation (n + 1) ahead with
        result := (readContinuation (n + 1) ahead).result.map fun tail =>
          some (.ofText (n + 1) comment (c :: chars ++ tail)) } := by
  rw [readExpression]
  simp only [Line.read, List.head?_cons]
  split
  · rename_i h; exact absurd (Option.some.inj h) hnewline
  · rename_i h; exact absurd (Option.some.inj h) hcomment
  · rename_i h; exact absurd (Option.some.inj h) hspace
  · rename_i h; exact absurd (Option.some.inj h) htab
  · rfl

end Lines

/-- A tab at the start of a line continues the command above. -/
theorem readContinuation_tab (n : Nat) (chars : Text) (ahead : Stream) :
    readContinuation n (.text ('\t' :: chars) :: ahead) =
      ⟨(readContinuation (n + 1) ahead).result.map (chars ++ ·),
        (readContinuation (n + 1) ahead).ahead, (readContinuation (n + 1) ahead).line⟩ := rfl

/-- Any other line continues nothing and is left where it is. -/
theorem readContinuation_stop (n : Nat) {l : Line} (ahead : Stream)
    (h : l.startsWithTab = .ok false) :
    readContinuation n (l :: ahead) = ⟨.ok [], l :: ahead, n⟩ := by
  rw [readContinuation, h]

/-- What is read is a blank line or the expression of a command's text, with the comment that was
    met before. -/
theorem readExpression_eq_some {n : Nat} {comment : Text} {s : Stream} {e : Expression}
    (h : (readExpression n comment s).result = .ok (some e)) :
    ∃ line more, e = { line, comment := comment ++ more } ∨
      ∃ t, e = .ofText line (comment ++ more) t := by
  induction s generalizing n comment with
  | nil =>
      rw [readExpression] at h
      split at h
      · cases h
      · refine ⟨if comment.getLast? = some '\n' then n + 1 else n, [], .inl ?_⟩
        rw [List.append_nil]
        exact (Option.some.inj (Except.ok.inj h)).symm
  | cons l ahead ih =>
      rw [readExpression] at h
      split at h
      · cases h
      · rename_i chars _
        split at h
        · refine ⟨n + 1, [], .inl ?_⟩
          rw [List.append_nil]
          exact (Option.some.inj (Except.ok.inj h)).symm
        · obtain ⟨line, more, he⟩ := ih h
          refine ⟨line, chars ++ more, ?_⟩
          rw [← List.append_assoc]
          exact he
        · cases h
        · cases h
        · simp only at h
          cases htail : (readContinuation (n + 1) ahead).result with
          | error error => rw [htail] at h; cases h
          | ok tail =>
              rw [htail] at h
              refine ⟨n + 1, [], .inr ⟨chars ++ tail, ?_⟩⟩
              rw [List.append_nil]
              exact (Option.some.inj (Except.ok.inj h)).symm

/-- There is no expression only where there is no line, and no comment was met. -/
theorem readExpression_eq_none {n : Nat} {comment : Text} {s : Stream}
    (h : (readExpression n comment s).result = .ok none) : s = [] ∧ comment = [] := by
  induction s generalizing n comment with
  | nil =>
      rw [readExpression] at h
      split at h
      · rename_i hnone; exact ⟨rfl, hnone⟩
      · cases h
  | cons l ahead ih =>
      rw [readExpression] at h
      split at h
      · cases h
      · rename_i chars _
        split at h
        · cases h
        · rename_i hcomment
          -- a comment line has at least its number sign
          obtain ⟨-, hnone⟩ := ih h
          rw [(List.append_eq_nil_iff.mp hnone).2] at hcomment
          cases hcomment
        · cases h
        · cases h
        · simp only at h
          cases htail : (readContinuation (n + 1) ahead).result with
          | error error => rw [htail] at h; cases h
          | ok tail => rw [htail] at h; cases h

/-- A comment that was met is not lost. -/
theorem comment_ne_nil_of_readExpression {n : Nat} {comment : Text} {s : Stream} {e : Expression}
    (hcomment : comment ≠ []) (h : (readExpression n comment s).result = .ok (some e)) :
    e.comment ≠ [] := by
  have hmore : ∀ more, comment ++ more ≠ [] := fun more => by simp [hcomment]
  obtain ⟨line, more, rfl | ⟨t, rfl⟩⟩ := readExpression_eq_some h
  · exact hmore more
  · exact hmore more

/-! ## Lines of a text -/

/-- The lines of a text that starts with closed lines. -/
theorem Stream.ofText_closed {ls : List Text} (h : ∀ l ∈ ls, '\n' ∉ l) (rest : Text) :
    Stream.ofText ((Text.closed ls).flatten ++ rest) =
      (Text.closed ls).map .text ++ Stream.ofText rest := by
  simp only [Stream.ofText, Text.physicalLines, Text.pieces_closed h, List.map_append]

/-- The first line of a text starts with its first character. -/
theorem Stream.ofText_cons (c : Char) (t : Text) :
    ∃ chars ahead, Stream.ofText (c :: t) = .text (c :: chars) :: ahead := by
  obtain ⟨p, ps, hpieces⟩ := Text.pieces_cons '\n' c t
  refine ⟨p, ps.map .text, ?_⟩
  simp only [Stream.ofText, Text.physicalLines, hpieces, List.map_cons]

/-- A line that does not start with a tab continues nothing. -/
theorem readContinuation_ofText (n : Nat) {t : Text} (h : t.head? ≠ some '\t') :
    readContinuation n (Stream.ofText t) = ⟨.ok [], Stream.ofText t, n⟩ := by
  cases t with
  | nil => rfl
  | cons c t =>
      obtain ⟨chars, ahead, hlines⟩ := Stream.ofText_cons c t
      have hc : c ≠ '\t' := fun heq => h (by rw [heq]; rfl)
      have hother : (Line.text (c :: chars)).startsWithTab = .ok false := by
        simpa [Line.startsWithTab] using hc
      rw [hlines, readContinuation_stop n ahead hother]

/-- Continuation lines are joined without their tabs, up to a line that continues nothing. -/
theorem readContinuation_closed (n : Nat) (ls : List Text) {t : Text} (h : t.head? ≠ some '\t') :
    readContinuation n ((Text.closed (ls.map ('\t' :: ·))).map .text ++ Stream.ofText t) =
      ⟨.ok (Text.closed ls).flatten, Stream.ofText t, n + ls.length⟩ := by
  induction ls generalizing n with
  | nil => exact readContinuation_ofText n h
  | cons l ls ih =>
      show readContinuation n (.text ('\t' :: (l ++ ['\n'])) ::
        ((Text.closed (ls.map ('\t' :: ·))).map .text ++ Stream.ofText t)) = _
      rw [readContinuation_tab, ih, List.length_cons, Nat.add_assoc n 1, Nat.add_comm 1]
      rfl

/-- A text that starts like a command, moved to the right and closed, is read as that command,
    provided that the line behind it is no continuation. -/
theorem readExpression_indented (n : Nat) (comment : Text) {c : Char} {t rest : Text}
    (hnewline : c ≠ '\n') (hcomment : c ≠ '#') (hspace : c ≠ ' ') (htab : c ≠ '\t')
    (hrest : rest.head? ≠ some '\t') :
    readExpression n comment (Stream.ofText (Text.indented (c :: t) ++ ['\n'] ++ rest)) =
      ⟨.ok (some (.ofText (n + 1) comment ((c :: t) ++ ['\n']))), Stream.ofText rest,
        n + ((c :: t).count '\n' + 1)⟩ := by
  obtain ⟨l, ls, hsplit⟩ := List.exists_cons_of_ne_nil (List.splitOn_ne_nil '\n' t)
  have hparts := Text.splitOn_cons_of_ne hnewline hsplit
  -- the lines of the page are the parts of the text, all but the first behind a tab
  have hlines : ∀ l' ∈ (c :: l) :: ls.map ('\t' :: ·), '\n' ∉ l' := by
    have hfree := Text.not_mem_of_mem_splitOn (c :: t)
    rw [hparts] at hfree
    intro l' hl'
    rcases List.mem_cons.mp hl' with rfl | hl'
    · exact hfree _ List.mem_cons_self
    · obtain ⟨part, hpart, rfl⟩ := List.mem_map.mp hl'
      have hpart' := hfree part (List.mem_cons_of_mem _ hpart)
      simpa using hpart'
  have hcount : (c :: t).count '\n' + 1 = 1 + ls.length := by
    rw [← Text.length_splitOn, hparts, List.length_cons, Nat.add_comm]
  have htext : (c :: (l ++ ['\n'])) ++ (Text.closed ls).flatten = (c :: t) ++ ['\n'] := by
    rw [← Text.closed_splitOn (c :: t), hparts]
    rfl
  have hstream : Stream.ofText (Text.indented (c :: t) ++ ['\n'] ++ rest) =
      .text (c :: (l ++ ['\n'])) ::
        ((Text.closed (ls.map ('\t' :: ·))).map .text ++ Stream.ofText rest) := by
    rw [Text.indented_eq_closed hparts, Stream.ofText_closed hlines]
    rfl
  rw [hstream, readExpression_command n comment _ _ hnewline hcomment hspace htab,
    readContinuation_closed (n + 1) ls hrest, hcount, ← htext, ← Nat.add_assoc]
  rfl

/-! ## Whole streams -/

/-- Reading on takes one expression and goes on behind it, also at the end of a stream. -/
theorem readFrom_eq (n : Nat) (s : Stream) :
    readFrom n s =
      match (readExpression n [] s).result with
      | .error error => ([], some error)
      | .ok none => ([], none)
      | .ok (some e) =>
          (e :: (readFrom (readExpression n [] s).line (readExpression n [] s).ahead).1,
            (readFrom (readExpression n [] s).line (readExpression n [] s).ahead).2) := by
  cases s with
  | nil => exact readFrom.eq_def n []
  | cons l ahead => exact readFrom.eq_def n (l :: ahead)

/-- A text parses if nothing stops its reading. -/
theorem parse_eq_ok_iff {t : Text} {es : List Expression} :
    parse t = .ok es ↔ readAll (Stream.ofText t) = (es, none) := by
  rw [parse]
  obtain ⟨found, stopped⟩ := readAll (Stream.ofText t)
  cases stopped with
  | none => simp
  | some error => simp

/-- A text does not parse if something stops its reading. -/
theorem parse_eq_error_iff {t : Text} {error : SyntaxError} :
    parse t = .error error ↔ (readAll (Stream.ofText t)).2 = some error := by
  rw [parse]
  obtain ⟨found, stopped⟩ := readAll (Stream.ofText t)
  cases stopped with
  | none => simp
  | some error => simp

/-- What holds of every expression that can be read holds of all of them together. -/
theorem forall_mem_readFrom {P : Expression → Prop}
    (h : ∀ n s e, (readExpression n [] s).result = .ok (some e) → P e) (n : Nat) (s : Stream) :
    ∀ e ∈ (readFrom n s).1, P e := by
  fun_induction readFrom n s with
  | case1 n => intro e he; cases he
  | case2 n l rest step error hread => intro e he; cases he
  | case3 n l rest step hread => intro e he; cases he
  | case4 n l rest step e hread more ih =>
      intro e' he'
      rcases List.mem_cons.mp he' with rfl | he'
      · exact h n _ e' hread
      · exact ih e' he'

namespace Reader

/-- All expressions that a reader has ahead, and the error that stops them. -/
def rest (r : Reader) : List Expression × Option SyntaxError := readFrom r.line r.ahead

/-- A reader at the start of a stream has all of it ahead. -/
theorem rest_ofStream (s : Stream) : (ofStream s).rest = readAll s := rfl

variable {r r' : Reader}

/-- What a reader that has not failed reads is one step of its stream. -/
theorem read_of_ready (hready : r.failed = none) :
    r.read.1 = (readExpression r.line [] r.ahead).result ∧
      r.read.2.line = (readExpression r.line [] r.ahead).line ∧
      r.read.2.ahead = (readExpression r.line [] r.ahead).ahead := by
  rw [read, hready]
  exact ⟨rfl, rfl, rfl⟩

/-- An error is all that was ahead. -/
theorem rest_of_read_error {error : SyntaxError} (hready : r.failed = none)
    (h : r.read = (.error error, r')) : r.rest = ([], some error) := by
  obtain ⟨hresult, -, -⟩ := read_of_ready hready
  rw [h] at hresult
  rw [rest, readFrom_eq, ← hresult]

/-- At the end nothing is ahead. -/
theorem rest_of_read_none (hready : r.failed = none) (h : r.read = (.ok none, r')) :
    r.rest = ([], none) := by
  obtain ⟨hresult, -, -⟩ := read_of_ready hready
  rw [h] at hresult
  rw [rest, readFrom_eq, ← hresult]

/-- An expression that is read was the first one ahead. -/
theorem rest_of_read_some {e : Expression} (hready : r.failed = none)
    (h : r.read = (.ok (some e), r')) : r.rest = (e :: r'.rest.1, r'.rest.2) := by
  obtain ⟨hresult, hline, hahead⟩ := read_of_ready hready
  rw [h] at hresult hline hahead
  rw [rest, readFrom_eq, ← hresult, ← hline, ← hahead]
  rfl

/-- A reader that gives an expression has not failed. -/
theorem ready_of_read_some {e : Expression} (hready : r.failed = none)
    (h : r.read = (.ok (some e), r')) : r'.failed = none := by
  rw [read, hready] at h
  obtain ⟨hresult, rfl⟩ := Prod.mk.inj h
  simp only [hresult]

/-- Reads on until the end or an error: all expressions, that error, and the reader after it. -/
def drain (r : Reader) : List Expression × Option SyntaxError × Reader :=
  match _h : r.read with
  | (.ok none, r') => ([], none, r')
  | (.error error, r') => ([], some error, r')
  | (.ok (some e), r') =>
      let (es, error, last) := drain r'
      (e :: es, error, last)
termination_by r.ahead.length
decreasing_by exact length_ahead_read_lt _h

/-- Reading on gives what was ahead. -/
theorem drain_eq_rest (hready : r.failed = none) : (r.drain.1, r.drain.2.1) = r.rest := by
  fun_induction drain r with
  | case1 r r' hread => rw [rest_of_read_none hready hread]
  | case2 r error r' hread => rw [rest_of_read_error hready hread]
  | case3 r e r' hread es error last hdrain ih =>
      have hmore := ih (ready_of_read_some hready hread)
      rw [hdrain] at hmore
      rw [rest_of_read_some hready hread, ← hmore]

end Reader

end LineScript
