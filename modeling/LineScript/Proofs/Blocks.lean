import LineScript.Proofs.Reading

/-!
# The lines of an expression

The reader counts lines while it collects comments, looks one line ahead for continuations and
steps over the end of input. This file says what comes of it without a counter: the physical lines
of a text fall into blocks, one for every expression and in the same order, and where an expression
stands, which comment it has and which text can be read off the lines around its number.

* `Block`: comment lines, a blank line or a command line, continuation lines.
* `Partition`: blocks and their expressions, with the line numbers that their sizes give.
* `readFrom_blocks`, `readFrom_partition`: what is read comes from such blocks, up to an error.
* `Partition.stands`: how each expression stands among the lines.
-/

namespace LineScript

/-! ## Blocks -/

/-- A line that starts with a number sign. -/
def isComment (l : Text) : Bool := l.head? == some '#'

/-- A line that starts with a tab. -/
def isContinuation (l : Text) : Bool := l.head? == some '\t'

theorem eq_cons_of_isComment {l : Text} (h : isComment l = true) : ∃ rest, l = '#' :: rest :=
  List.head?_eq_some_iff.mp (by simpa [isComment] using h)

theorem eq_cons_of_isContinuation {l : Text} (h : isContinuation l = true) :
    ∃ rest, l = '\t' :: rest :=
  List.head?_eq_some_iff.mp (by simpa [isContinuation] using h)

/-- A blank line, or a line that can start a command. -/
def IsMain (l : Text) : Prop :=
  l = ['\n'] ∨ ∃ c rest, l = c :: rest ∧ c ≠ '\n' ∧ c ≠ '#' ∧ c ≠ ' ' ∧ c ≠ '\t'

theorem IsMain.not_comment {l : Text} (h : IsMain l) : isComment l = false := by
  rcases h with rfl | ⟨c, rest, rfl, -, hcomment, -, -⟩
  · rfl
  · simpa [isComment] using hcomment

theorem IsMain.not_continuation {l : Text} (h : IsMain l) : isContinuation l = false := by
  rcases h with rfl | ⟨c, rest, rfl, -, -, -, htab⟩
  · rfl
  · simpa [isContinuation] using htab

/-- The physical lines of one expression. Comment lines at the end of a text have no other line
    to go with; only a command has continuation lines. -/
structure Block where
  comments : List Text
  main : Option Text
  continuation : List Text
  comments_start : ∀ l ∈ comments, isComment l = true
  main_start : ∀ l ∈ main, IsMain l
  continuation_start : ∀ l ∈ continuation, isContinuation l = true
  comments_ne_nil : main = none → comments ≠ []
  continues : continuation ≠ [] → ∃ l ∈ main, l ≠ ['\n']

namespace Block

/-- The lines of a block in order. -/
def lines (b : Block) : List Text := b.comments ++ (b.main.toList ++ b.continuation)

/-- The expression of a block behind `n` lines. Its text is the command line and the continuation
    lines without their tabs. Comment lines alone stand on the last of them, or on the line after it
    if that one has its line feed. -/
def expression (n : Nat) (b : Block) : Expression :=
  match b.main with
  | some l =>
      .ofText (n + b.comments.length + 1) b.comments.flatten
        (l ++ (b.continuation.map List.tail).flatten)
  | none =>
      { line := n + b.comments.length +
          if (b.comments.getLastD []).getLast? = some '\n' then 1 else 0
        comment := b.comments.flatten }

section Shape

variable (b : Block)

/-- A block with a line of its own has its comment lines above it and continuation lines below. -/
theorem lines_of_main {l : Text} (h : b.main = some l) :
    b.lines = b.comments ++ l :: b.continuation := by
  rw [lines, h]
  rfl

theorem length_lines {l : Text} (h : b.main = some l) :
    b.lines.length = b.comments.length + (b.continuation.length + 1) := by
  rw [lines_of_main b h, List.length_append, List.length_cons]

/-- Its expression has the number of that line. -/
theorem line_expression {l : Text} (h : b.main = some l) (n : Nat) :
    (b.expression n).line = n + b.comments.length + 1 := by
  rw [expression, h]
  rfl

/-- One without is its comment lines. -/
theorem lines_of_none (h : b.main = none) : b.lines = b.comments := by
  cases hcontinuation : b.continuation with
  | nil =>
      rw [lines, h, hcontinuation]
      exact List.append_nil b.comments
  | cons l rest =>
      obtain ⟨l', hl', -⟩ := b.continues (by simp [hcontinuation])
      rw [h] at hl'
      cases hl'

/-- A block starts with a comment line, a blank line or a command line. -/
theorem lines_eq_cons : ∃ l rest, b.lines = l :: rest ∧ isContinuation l = false := by
  cases hcomments : b.comments with
  | cons l rest =>
      refine ⟨l, rest ++ (b.main.toList ++ b.continuation), by rw [lines, hcomments]; rfl, ?_⟩
      have hstart := b.comments_start l (by simp [hcomments])
      have hsign : l.head? = some '#' := by simpa [isComment] using hstart
      simp [isContinuation, hsign]
  | nil =>
      cases hmain : b.main with
      | none => exact absurd hcomments (b.comments_ne_nil hmain)
      | some l =>
          refine ⟨l, b.continuation, by rw [lines, hcomments, hmain]; rfl, ?_⟩
          exact (b.main_start l hmain).not_continuation

/-- Behind a block with a line of its own no comment goes on. -/
theorem getLast?_append_lines (h : b.main ≠ none) (before : List Text) :
    ∀ l ∈ (before ++ b.lines).getLast?, isComment l = false := by
  intro l hl
  obtain ⟨first, hfirst⟩ := Option.ne_none_iff_exists'.mp h
  have hmem : l ∈ first :: b.continuation := by
    rw [lines_of_main b hfirst, ← List.append_assoc, List.getLast?_append,
      List.getLast?_cons, Option.some_or, ← List.getLast?_cons] at hl
    exact List.mem_of_getLast? hl
  rcases List.mem_cons.mp hmem with rfl | hmem
  · exact (b.main_start l hfirst).not_comment
  · have htab : l.head? = some '\t' := by
      simpa [isContinuation] using b.continuation_start l hmem
    simp [isComment, htab]

end Shape

end Block

/-- Blocks behind `n` lines and their expressions, in order. Only the last block may be comment
    lines alone. -/
inductive Partition : Nat → List Block → List Expression → Prop where
  | nil {n : Nat} : Partition n [] []
  | last {n : Nat} {b : Block} (hmain : b.main = none) : Partition n [b] [b.expression n]
  | cons {n : Nat} {b : Block} {bs : List Block} {es : List Expression} (hmain : b.main ≠ none)
      (hmore : Partition (n + b.lines.length) bs es) :
      Partition n (b :: bs) (b.expression n :: es)

/-! ## Reading takes a block -/

/-- Reading takes the continuation lines directly ahead, and no other. -/
theorem readContinuation_lines (n : Nat) (ls : List Text) :
    readContinuation n (ls.map .text) =
      ⟨.ok ((ls.takeWhile isContinuation).map List.tail).flatten,
        (ls.dropWhile isContinuation).map .text, n + (ls.takeWhile isContinuation).length⟩ := by
  induction ls generalizing n with
  | nil => rfl
  | cons l ls ih =>
      by_cases htab : isContinuation l = true
      · obtain ⟨rest, rfl⟩ := eq_cons_of_isContinuation htab
        rw [List.map_cons, readContinuation_tab, ih, List.takeWhile_cons_of_pos htab,
          List.dropWhile_cons_of_pos htab, List.length_cons, Nat.add_assoc n 1, Nat.add_comm 1]
        rfl
      · have hother : (Line.text l).startsWithTab = .ok false := by
          simpa [Line.startsWithTab, isContinuation] using htab
        rw [List.map_cons, readContinuation_stop n _ hother, List.takeWhile_cons_of_neg htab,
          List.dropWhile_cons_of_neg htab]
        rfl

/-- What is left behind a step of reading that took the block `b`. -/
structure Block.TakenBy (b : Block) (n : Nat) (rest : List Text)
    (step : Reading (Option Expression)) : Prop where
  ahead : step.ahead = rest.map .text
  line : b.main ≠ none → step.line = n + b.lines.length
  last : b.main = none → rest = []

/-- Comment lines end as the last of them ends. -/
theorem getLast?_flatten_comments {comments : List Text}
    (h : ∀ l ∈ comments, isComment l = true) :
    comments.flatten.getLast? = (comments.getLastD []).getLast? := by
  rcases List.eq_nil_or_concat comments with rfl | ⟨rest, l, rfl⟩
  · rfl
  · rw [List.concat_eq_append] at h ⊢
    obtain ⟨chars, rfl⟩ := eq_cons_of_isComment (h l (by simp))
    rw [List.flatten_append, List.flatten_singleton, List.getLast?_append, List.getLast?_cons,
      Option.some_or, List.getLastD_concat, List.getLast?_cons]

section Taking

variable {n : Nat} {comments : List Text} {e : Expression}

/-- At the end of a text comment lines are a block of their own. -/
theorem readExpression_block_nil (hcomments : ∀ l ∈ comments, isComment l = true)
    (h : (readExpression (n + comments.length) comments.flatten []).result = .ok (some e)) :
    ∃ b : Block, comments = b.lines ∧ e = b.expression n ∧
      b.TakenBy n [] (readExpression (n + comments.length) comments.flatten []) := by
  rw [readExpression] at h ⊢
  by_cases hnone : comments.flatten = []
  · rw [if_pos hnone] at h
    cases h
  · rw [if_neg hnone] at h ⊢
    have hne : comments ≠ [] := by
      rintro rfl
      exact hnone rfl
    refine ⟨⟨comments, none, [], hcomments, by simp, by simp, fun _ => hne, by simp⟩,
      by simp [Block.lines], ?_, rfl, fun hmain => absurd rfl hmain, fun _ => rfl⟩
    rw [← Option.some.inj (Except.ok.inj h), Block.expression,
      ← getLast?_flatten_comments hcomments]
    split <;> rfl

/-- A blank line ends the block of the comment lines above it. -/
theorem readExpression_block_blank (hcomments : ∀ l ∈ comments, isComment l = true)
    (ls : List Text)
    (h : (readExpression (n + comments.length) comments.flatten
      ((['\n'] :: ls).map .text)).result = .ok (some e)) :
    ∃ b : Block, comments ++ ['\n'] :: ls = b.lines ++ ls ∧ e = b.expression n ∧
      b.TakenBy n ls
        (readExpression (n + comments.length) comments.flatten ((['\n'] :: ls).map .text)) := by
  rw [List.map_cons, readExpression_newline] at h ⊢
  refine ⟨⟨comments, some ['\n'], [], hcomments, ?_, by simp, by simp, by simp⟩,
    by simp [Block.lines], (Option.some.inj (Except.ok.inj h)).symm, rfl, ?_, by simp⟩
  · intro l hl
    exact .inl (Option.some.inj hl).symm
  · intro _
    simp only [Block.lines, Option.toList_some, List.append_nil, List.length_append,
      List.length_singleton, Nat.add_assoc]

/-- A command line takes the continuation lines below it into its block. -/
theorem readExpression_block_command (hcomments : ∀ l ∈ comments, isComment l = true) {c : Char}
    (hnewline : c ≠ '\n') (hcomment : c ≠ '#') (hspace : c ≠ ' ') (htab : c ≠ '\t')
    (chars : Text) (ls : List Text)
    (h : (readExpression (n + comments.length) comments.flatten
      (((c :: chars) :: ls).map .text)).result = .ok (some e)) :
    ∃ (b : Block) (rest : List Text), comments ++ (c :: chars) :: ls = b.lines ++ rest ∧
      e = b.expression n ∧ b.TakenBy n rest
        (readExpression (n + comments.length) comments.flatten
          (((c :: chars) :: ls).map .text)) := by
  rw [List.map_cons, readExpression_command _ _ _ _ hnewline hcomment hspace htab,
    readContinuation_lines] at h ⊢
  refine ⟨⟨comments, some (c :: chars), ls.takeWhile isContinuation, hcomments, ?_, ?_,
    by simp, ?_⟩, ls.dropWhile isContinuation, ?_, ?_, rfl, ?_, by simp⟩
  · intro l hl
    exact .inr ⟨c, chars, (Option.some.inj hl).symm, hnewline, hcomment, hspace, htab⟩
  · intro l hl
    exact List.all_eq_true.mp List.all_takeWhile l hl
  · intro _
    exact ⟨c :: chars, rfl, fun heq => hnewline (List.cons.inj heq).1⟩
  · simp [Block.lines, List.takeWhile_append_dropWhile]
  · exact (Option.some.inj (Except.ok.inj h)).symm
  · intro _
    simp only [Block.lines, Option.toList_some, List.length_append, List.length_singleton,
      Nat.add_assoc]

/-- An expression is read from a block, of which the lines `comments` have been read before. -/
theorem readExpression_block {ls : List Text} (hcomments : ∀ l ∈ comments, isComment l = true)
    (hlines : ∀ l ∈ ls, ∃ c rest, l = c :: rest ∧ (c = '\n' → rest = []))
    (h : (readExpression (n + comments.length) comments.flatten (ls.map .text)).result =
      .ok (some e)) :
    ∃ b rest, comments ++ ls = Block.lines b ++ rest ∧ e = b.expression n ∧
      b.TakenBy n rest
        (readExpression (n + comments.length) comments.flatten (ls.map .text)) := by
  induction ls generalizing comments with
  | nil =>
      obtain ⟨b, hb, he, htaken⟩ := readExpression_block_nil hcomments h
      exact ⟨b, [], by rw [← hb], he, htaken⟩
  | cons l ls ih =>
      obtain ⟨c, chars, rfl, hblank⟩ := hlines l List.mem_cons_self
      by_cases hnewline : c = '\n'
      · subst hnewline
        obtain rfl := hblank rfl
        obtain ⟨b, hb, he, htaken⟩ := readExpression_block_blank hcomments ls h
        exact ⟨b, ls, hb, he, htaken⟩
      by_cases hcomment : c = '#'
      · -- one more comment line has been read
        subst hcomment
        have hmore : ∀ l ∈ comments ++ ['#' :: chars], isComment l = true := by
          intro l hl
          rcases List.mem_append.mp hl with hl | hl
          · exact hcomments l hl
          · rw [List.mem_singleton.mp hl]
            rfl
        have hsum : n + comments.length + 1 = n + (comments ++ ['#' :: chars]).length := by
          rw [List.length_append, List.length_singleton, Nat.add_assoc]
        have hflat : comments.flatten ++ '#' :: chars = (comments ++ ['#' :: chars]).flatten := by
          rw [List.flatten_append, List.flatten_singleton]
        rw [List.map_cons, readExpression_comment, hsum, hflat] at h ⊢
        obtain ⟨b, rest, happend, he, htaken⟩ :=
          ih hmore (fun l hl => hlines l (List.mem_cons_of_mem _ hl)) h
        refine ⟨b, rest, ?_, he, htaken⟩
        rw [← happend, List.append_assoc, List.singleton_append]
      by_cases hspace : c = ' '
      · subst hspace
        cases h
      by_cases htab : c = '\t'
      · subst htab
        cases h
      exact readExpression_block_command hcomments hnewline hcomment hspace htab chars ls h

end Taking

/-- What is read comes from blocks at the start of the lines; an error alone leaves lines behind. -/
theorem readFrom_blocks {n : Nat} {ls : List Text}
    (hlines : ∀ l ∈ ls, ∃ c rest, l = c :: rest ∧ (c = '\n' → rest = [])) :
    ∃ bs behind, bs.flatMap Block.lines ++ behind = ls ∧
      Partition n bs (readFrom n (ls.map .text)).1 ∧
      ((readFrom n (ls.map .text)).2 = none → behind = []) := by
  generalize hs : ls.map Line.text = s
  fun_induction readFrom n s generalizing ls with
  | case1 n =>
      rw [List.map_eq_nil_iff.mp hs]
      exact ⟨[], [], rfl, .nil, fun _ => rfl⟩
  | case2 n l rest step error =>
      refine ⟨[], ls, rfl, .nil, fun hnone => ?_⟩
      cases hnone
  | case3 n l rest step =>
      rename_i hread
      cases (readExpression_eq_none hread).1
  | case4 n l ahead step e =>
      rename_i hread more ih
      have hstart : (readExpression (n + ([] : List Text).length) ([] : List Text).flatten
          (ls.map .text)).result = .ok (some e) := by
        rw [hs]
        exact hread
      obtain ⟨b, rest, happend, rfl, htaken⟩ := readExpression_block (by simp) hlines hstart
      rw [List.nil_append] at happend
      have hahead : rest.map Line.text = step.ahead := by
        rw [← htaken.ahead, hs]
        rfl
      cases hmain : b.main with
      | none =>
          -- nothing stands behind comment lines alone
          obtain rfl := htaken.last hmain
          have hend : (readFrom step.line step.ahead).1 = [] := by
            rw [← hahead, readFrom_eq]
            rfl
          refine ⟨[b], [], by rw [happend, List.flatMap_singleton], ?_, fun _ => rfl⟩
          show Partition n [b] (b.expression n :: (readFrom step.line step.ahead).1)
          rw [hend]
          exact .last hmain
      | some l =>
          have hline : step.line = n + b.lines.length := by
            rw [← htaken.line (by simp [hmain]), hs]
            rfl
          obtain ⟨bs, behind, hbs, hpartition, hnone⟩ := ih (fun l hl => hlines l (by
            rw [happend]
            exact List.mem_append_right b.lines hl)) hahead
          refine ⟨b :: bs, behind, by rw [List.flatMap_cons, List.append_assoc, hbs, happend],
            .cons (by simp [hmain]) ?_, hnone⟩
          rw [← hline]
          exact hpartition

/-- What is read without an error comes from blocks that make up the lines. -/
theorem readFrom_partition {n : Nat} {ls : List Text}
    (hlines : ∀ l ∈ ls, ∃ c rest, l = c :: rest ∧ (c = '\n' → rest = []))
    (h : (readFrom n (ls.map .text)).2 = none) :
    ∃ bs, bs.flatMap Block.lines = ls ∧ Partition n bs (readFrom n (ls.map .text)).1 := by
  obtain ⟨bs, behind, hbs, hpartition, hnone⟩ := @readFrom_blocks n ls hlines
  rw [hnone h, List.append_nil] at hbs
  exact ⟨bs, hbs, hpartition⟩

/-! ## Where an expression stands -/

/-- The comment lines directly above the lines behind the first `k`. -/
def commentsAbove (ls : List Text) (k : Nat) : List Text :=
  ((ls.take k).reverse.takeWhile isComment).reverse

/-- The continuation lines directly below the first `k` lines. -/
def continuationBelow (ls : List Text) (k : Nat) : List Text :=
  (ls.drop k).takeWhile isContinuation

/-- An expression has the number of a blank line or command line `l`, the comment directly above
    it, and the text of `l` and the continuation lines directly below it. -/
def Stands (ls : List Text) (e : Expression) : Prop :=
  ∃ l, 0 < e.line ∧ ls[e.line - 1]? = some l ∧ IsMain l ∧
    e.comment = (commentsAbove ls (e.line - 1)).flatten ∧
    (e.name, e.body) = splitName (Text.stripNewline
      (l ++ ((continuationBelow ls e.line).map List.tail).flatten))

/-- The expression of the comment lines that end a text, if there are any. It has the number of the
    last line, or the next number if that line has its line feed. -/
def finalComment (ls : List Text) : Option Expression :=
  if commentsAbove ls ls.length = [] then none
  else some {
    line := ls.length + if (ls.getLastD []).getLast? = some '\n' then 1 else 0
    comment := (commentsAbove ls ls.length).flatten }

/-- A run of comment lines starts where the line above it is none. -/
theorem commentsAbove_append {before comments : List Text} (behind : List Text)
    (hcomments : ∀ l ∈ comments, isComment l = true)
    (hbefore : ∀ l ∈ before.getLast?, isComment l = false) :
    commentsAbove (before ++ comments ++ behind) (before.length + comments.length) = comments := by
  have htake : (before ++ comments ++ behind).take (before.length + comments.length) =
      before ++ comments := by
    rw [← List.length_append, List.take_left]
  have hnone : before.reverse.takeWhile isComment = [] := by
    cases hreverse : before.reverse with
    | nil => rfl
    | cons l rest =>
        have hlast := hbefore l (by rw [← List.head?_reverse, hreverse]; rfl)
        exact List.takeWhile_cons_of_neg (by rw [hlast]; exact Bool.false_ne_true)
  rw [commentsAbove, htake, List.reverse_append, List.takeWhile_append_of_pos, hnone,
    List.append_nil, List.reverse_reverse]
  intro l hl
  exact hcomments l (List.mem_reverse.mp hl)

/-- A run of continuation lines ends where the line below it is none. -/
theorem continuationBelow_append (before : List Text) {continuation behind : List Text}
    (hcontinuation : ∀ l ∈ continuation, isContinuation l = true)
    (hbehind : ∀ l ∈ behind.head?, isContinuation l = false) :
    continuationBelow (before ++ (continuation ++ behind)) before.length = continuation := by
  have hnone : behind.takeWhile isContinuation = [] := by
    cases behind with
    | nil => rfl
    | cons l rest =>
        have hfirst := hbehind l rfl
        exact List.takeWhile_cons_of_neg (by rw [hfirst]; exact Bool.false_ne_true)
  rw [continuationBelow, List.drop_left, List.takeWhile_append_of_pos hcontinuation, hnone,
    List.append_nil]

/-- The continuation lines of a block are those below its line. -/
theorem Block.continuationBelow_lines (b : Block) {l : Text} (hl : b.main = some l)
    (before : List Text) {behind : List Text}
    (hbehind : ∀ l ∈ behind.head?, isContinuation l = false) :
    continuationBelow (before ++ (b.lines ++ behind)) (b.expression before.length).line =
      b.continuation := by
  have hlines : before ++ (b.lines ++ behind) =
      (before ++ b.comments ++ [l]) ++ (b.continuation ++ behind) := by
    rw [lines_of_main b hl]
    simp
  have hline : (b.expression before.length).line = (before ++ b.comments ++ [l]).length := by
    rw [b.line_expression hl, List.length_append, List.length_append, List.length_singleton]
  rw [hlines, hline, continuationBelow_append _ b.continuation_start hbehind]

/-- What stands in a block with a line of its own, between lines that do not belong to it. -/
theorem Block.stands (b : Block) {before behind : List Text} (hmain : b.main ≠ none)
    (hbefore : ∀ l ∈ before.getLast?, isComment l = false)
    (hbehind : ∀ l ∈ behind.head?, isContinuation l = false) :
    Stands (before ++ b.lines ++ behind) (b.expression before.length) := by
  obtain ⟨l, hl⟩ := Option.ne_none_iff_exists'.mp hmain
  have hline := b.line_expression hl before.length
  have habove : before ++ b.lines ++ behind =
      before ++ b.comments ++ (l :: (b.continuation ++ behind)) := by
    rw [lines_of_main b hl]
    simp
  have hbelow := b.continuationBelow_lines hl before hbehind
  rw [← List.append_assoc] at hbelow
  refine ⟨l, ?_, ?_, b.main_start l hl, ?_, ?_⟩
  · rw [hline]
    exact Nat.succ_pos _
  · rw [hline, habove, Nat.add_sub_cancel, ← List.length_append,
      List.getElem?_append_right (Nat.le_refl _), Nat.sub_self]
    rfl
  · rw [hline, habove, Nat.add_sub_cancel, commentsAbove_append _ b.comments_start hbefore,
      expression, hl]
    rfl
  · rw [hbelow, expression, hl]
    rfl

namespace Partition

variable {n : Nat} {bs : List Block} {es : List Expression}

/-- The lines of blocks do not start with a continuation line. -/
theorem head?_lines (bs : List Block) :
    ∀ l ∈ (bs.flatMap Block.lines).head?, isContinuation l = false := by
  intro l hl
  cases bs with
  | nil => cases hl
  | cons b bs =>
      obtain ⟨first, rest, hlines, hfirst⟩ := b.lines_eq_cons
      rw [List.flatMap_cons, hlines] at hl
      obtain rfl := Option.some.inj hl
      exact hfirst

/-- Behind lines of others, all expressions stand among the lines by their numbers, but for the
    one of the comment lines at the end. -/
theorem stands (h : Partition n bs es) {before : List Text} (hlength : before.length = n)
    (hbefore : ∀ l ∈ before.getLast?, isComment l = false) :
    ∃ es', es = es' ++ (finalComment (before ++ bs.flatMap Block.lines)).toList ∧
      ∀ e ∈ es', Stands (before ++ bs.flatMap Block.lines) e := by
  induction h generalizing before with
  | nil =>
      have hempty : ∀ l ∈ ([] : List Text), isComment l = true := by
        simp
      have hnone : commentsAbove before before.length = [] := by
        simpa using commentsAbove_append [] hempty hbefore
      refine ⟨[], ?_, by simp⟩
      rw [List.flatMap_nil, List.append_nil, finalComment, if_pos hnone]
      rfl
  | @last n b hmain =>
      have hcomments : commentsAbove (before ++ b.comments) (before ++ b.comments).length =
          b.comments := by
        rw [List.length_append]
        simpa using commentsAbove_append [] b.comments_start hbefore
      have hlast : (before ++ b.comments).getLastD [] = b.comments.getLastD [] := by
        obtain ⟨l, rest, hcons⟩ := List.exists_cons_of_ne_nil (b.comments_ne_nil hmain)
        rw [List.getLastD_eq_getLast?, List.getLastD_eq_getLast?, List.getLast?_append, hcons,
          List.getLast?_cons, Option.some_or]
      refine ⟨[], ?_, by simp⟩
      rw [List.flatMap_singleton, b.lines_of_none hmain, finalComment, hcomments,
        if_neg (b.comments_ne_nil hmain), hlast, List.length_append, hlength, Block.expression,
        hmain]
      rfl
  | @cons n b bs es hmain hmore ih =>
      have hbehind : (before ++ b.lines).length = n + b.lines.length := by
        rw [List.length_append, hlength]
      obtain ⟨es', hes, hstands⟩ := ih hbehind (b.getLast?_append_lines hmain before)
      rw [List.flatMap_cons, ← List.append_assoc]
      refine ⟨b.expression n :: es', by rw [hes]; rfl, ?_⟩
      intro e he
      rcases List.mem_cons.mp he with rfl | he
      · rw [← hlength]
        exact b.stands hmain hbefore (head?_lines bs)
      · exact hstands e he

/-- The numbers grow from one expression to the next, from behind the lines before. -/
theorem increasing (h : Partition n bs es) :
    (∀ e ∈ es, n < e.line) ∧ es.Pairwise (·.line < ·.line) := by
  induction h with
  | nil => exact ⟨by simp, .nil⟩
  | @last n b hmain =>
      refine ⟨?_, List.pairwise_singleton _ _⟩
      intro e he
      have hpos := List.length_pos_iff.mpr (b.comments_ne_nil hmain)
      rw [List.mem_singleton.mp he, Block.expression, hmain]
      show n < n + b.comments.length + _
      omega
  | @cons n b bs es hmain hmore ih =>
      obtain ⟨l, hl⟩ := Option.ne_none_iff_exists'.mp hmain
      have hline := b.line_expression hl n
      have hsize := b.length_lines hl
      obtain ⟨habove, hpairwise⟩ := ih
      refine ⟨?_, hpairwise.cons ?_⟩
      · intro e he
        rcases List.mem_cons.mp he with rfl | he
        · omega
        · have hlt := habove e he
          omega
      · intro e he
        have hlt := habove e he
        omega

end Partition

/-- Reading partitions a text, with faithful line numbers and comments. For every text that parses:
    its physical lines, in order, are the lines of blocks, one block for every expression; each
    expression is the one of its block, where the sizes of the blocks give the line numbers and only
    the last block may be comment lines alone. By its line number, each expression but that of final
    comment lines stands on a blank line or command line of the text, has for its comment all the
    comment lines directly above, and for its text that line and all the continuation lines directly
    below. The numbers are positive and grow strictly. -/
theorem parse_partition {t : Text} {es : List Expression} (h : parse t = .ok es) :
    ∃ bs : List Block,
      bs.flatMap Block.lines = Text.physicalLines t ∧ Partition 0 bs es ∧
      (∃ es', es = es' ++ (finalComment (Text.physicalLines t)).toList ∧
        ∀ e ∈ es', Stands (Text.physicalLines t) e) ∧
      (∀ e ∈ es, 0 < e.line) ∧ es.Pairwise (·.line < ·.line) := by
  have hread : readFrom 0 ((Text.physicalLines t).map .text) = (es, none) := parse_eq_ok_iff.mp h
  have hlines : ∀ l ∈ Text.physicalLines t, ∃ c rest, l = c :: rest ∧ (c = '\n' → rest = []) :=
    fun l hl => Text.piece_eq_cons hl
  obtain ⟨bs, hbs, hpartition⟩ := readFrom_partition hlines (congrArg Prod.snd hread)
  rw [hread] at hpartition
  have hstands := hpartition.stands (List.length_nil (α := Text)) (by simp)
  rw [List.nil_append, hbs] at hstands
  exact ⟨bs, hbs, hpartition, hstands, hpartition.increasing⟩

/-- A comment, a command with a continuation line, a blank line, and a comment that ends the text
    without a line feed. -/
theorem parse_partition_mixed :
    ∃ es, parse "# a\nsay x\n\tmore\n\n# b".toList = .ok es ∧
      es = [⟨2, "# a\n".toList, "say".toList, "x\nmore".toList⟩, ⟨4, [], [], []⟩,
        ⟨5, "# b".toList, [], []⟩] ∧
      ∃ bs : List Block,
        bs.flatMap Block.lines = Text.physicalLines "# a\nsay x\n\tmore\n\n# b".toList ∧
        Partition 0 bs es ∧
        (∃ es', es = es' ++
            (finalComment (Text.physicalLines "# a\nsay x\n\tmore\n\n# b".toList)).toList ∧
          ∀ e ∈ es', Stands (Text.physicalLines "# a\nsay x\n\tmore\n\n# b".toList) e) ∧
        (∀ e ∈ es, 0 < e.line) ∧ es.Pairwise (·.line < ·.line) := by
  have hparse : parse "# a\nsay x\n\tmore\n\n# b".toList = .ok [
      ⟨2, "# a\n".toList, "say".toList, "x\nmore".toList⟩, ⟨4, [], [], []⟩,
      ⟨5, "# b".toList, [], []⟩] := parse_eq_ok_iff.mpr (by decide +kernel)
  exact ⟨_, hparse, rfl, parse_partition hparse⟩

end LineScript
