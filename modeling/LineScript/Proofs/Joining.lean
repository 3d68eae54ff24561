import LineScript.Proofs.Blocks
import LineScript.Proofs.Contents

/-!
# Texts one behind the other

The reader looks ahead for continuation lines and keeps comment lines for what comes below them, so
both reach across the seam of two texts. If the second does not start with a continuation line and
the first does not end with a comment line, nothing does: what is read is what is read of the first
and then, further down, of the second.

* `readFrom_append`: the seam, for streams.
* `readFrom_add`: reading further down changes line numbers and nothing else.
* `Text.Complete.readFrom_append`: both together, for texts.
* `parse_append`: what parses one behind the other.
-/

namespace LineScript

/-! ## The seam -/

namespace Stream

/-- The first line is no continuation of what stands above it. -/
def StartsAnew (s : Stream) : Prop := ∀ l ∈ s.head?, l.startsWithTab = .ok false

/-- Some line is no comment. -/
def HasMain (s : Stream) : Prop := ∃ l ∈ s, ∀ chars, l = .text chars → isComment chars = false

end Stream

section Seam

variable {s s' : Stream}

theorem readContinuation_startsAnew (n : Nat) (h : Stream.StartsAnew s) :
    readContinuation n s = ⟨.ok [], s, n⟩ := by
  cases s with
  | nil => rfl
  | cons l ahead => exact readContinuation_stop n ahead (h l rfl)

theorem readContinuation_append (n : Nat) (s : Stream) (h : Stream.StartsAnew s') :
    readContinuation n (s ++ s') =
      { readContinuation n s with ahead := (readContinuation n s).ahead ++ s' } := by
  induction s generalizing n with
  | nil => exact readContinuation_startsAnew n h
  | cons l ahead ih =>
      rw [List.cons_append, readContinuation, readContinuation]
      cases l.startsWithTab with
      | error error => rfl
      | ok tab =>
          cases tab with
          | false => rfl
          | true =>
              cases l.read with
              | error flaw => rfl
              | ok chars => simp only [ih]

/-- A comment line is not the one that a stream has for something else. -/
theorem Stream.HasMain.tail {chars : Text} (hcomment : chars.head? = some '#')
    (h : Stream.HasMain (.text chars :: s)) : Stream.HasMain s := by
  obtain ⟨l, hl, hmain⟩ := h
  rcases List.mem_cons.mp hl with rfl | hl
  · have hplain := hmain chars rfl
    rw [isComment, hcomment] at hplain
    cases hplain
  · exact ⟨l, hl, hmain⟩

/-- An expression is complete before the seam if there is a line for it. -/
theorem readExpression_append (n : Nat) (comment : Text) (hmain : Stream.HasMain s)
    (h : Stream.StartsAnew s') :
    readExpression n comment (s ++ s') =
      { readExpression n comment s with ahead := (readExpression n comment s).ahead ++ s' } := by
  induction s generalizing n comment with
  | nil =>
      obtain ⟨l, hl, -⟩ := hmain
      cases hl
  | cons l ahead ih =>
      rw [List.cons_append, readExpression, readExpression]
      cases l with
      | text chars =>
          simp only [Line.read]
          split
          · rfl
          · -- a comment belongs to what stands below it, and that is not behind the seam
            rename_i hcomment
            exact ih (n + 1) (comment ++ chars) (hmain.tail hcomment)
          · rfl
          · rfl
          · rw [readContinuation_append (n + 1) ahead h]
      | undecodable tab => rfl
      | broken tab error => rfl
      | failure error => rfl

theorem readContinuation_line {n : Nat} {tail : Text}
    (h : (readContinuation n s).result = .ok tail) :
    (readContinuation n s).line + (readContinuation n s).ahead.length = n + s.length := by
  induction s generalizing n tail with
  | nil => rfl
  | cons l ahead ih =>
      rw [readContinuation] at h ⊢
      split at h
      · cases h
      · rfl
      · split at h
        · cases h
        · simp only [List.length_cons] at h ⊢
          cases hmore : (readContinuation (n + 1) ahead).result with
          | error error =>
              rw [hmore] at h
              cases h
          | ok more =>
              have hline := ih hmore
              omega

/-- The lines that were read and the lines ahead are all lines. -/
theorem readExpression_line {n : Nat} {comment : Text} {found : Option Expression}
    (hmain : Stream.HasMain s) (h : (readExpression n comment s).result = .ok found) :
    (readExpression n comment s).line + (readExpression n comment s).ahead.length =
      n + s.length := by
  induction s generalizing n comment with
  | nil =>
      obtain ⟨l, hl, -⟩ := hmain
      cases hl
  | cons l ahead ih =>
      cases l with
      | text chars =>
          rw [readExpression] at h ⊢
          simp only [Line.read, List.length_cons] at h ⊢
          split at h
          · simp only
            omega
          · rename_i hcomment
            have hline := ih (hmain.tail hcomment) h
            omega
          · cases h
          · cases h
          · cases hmore : (readContinuation (n + 1) ahead).result with
            | error error =>
                rw [hmore] at h
                cases h
            | ok more =>
                have hline := readContinuation_line hmore
                simp only
                omega
      | undecodable tab => cases h
      | broken tab error => cases h
      | failure error => cases h

/-- A stream is read up to its end and then, from its last line on, what stands behind it. -/
theorem readFrom_append (n : Nat)
    (hlast : ∀ chars, s.getLast? = some (.text chars) → isComment chars = false)
    (h : Stream.StartsAnew s') :
    readFrom n (s ++ s') =
      match readFrom n s with
      | (es, none) =>
          (es ++ (readFrom (n + s.length) s').1, (readFrom (n + s.length) s').2)
      | (es, some error) => (es, some error) := by
  -- the last line is a main line for every expression that is read before it
  have hmain : ∀ s : Stream, s ≠ [] →
      (∀ chars, s.getLast? = some (.text chars) → isComment chars = false) →
      Stream.HasMain s := by
    intro s hne hlast
    refine ⟨s.getLast hne, List.getLast_mem hne, fun chars hchars => hlast chars ?_⟩
    rw [List.getLast?_eq_some_getLast hne, hchars]
  fun_induction readFrom n s with
  | case1 n => rfl
  | case2 n l rest step error hread =>
      rw [readFrom_eq, readExpression_append n [] (hmain _ (List.cons_ne_nil l rest) hlast) h]
      simp only [step] at hread
      simp only [hread]
  | case3 n l rest step hread => cases (readExpression_eq_none hread).1
  | case4 n l rest step e hread more ih =>
      have hhas := hmain _ (List.cons_ne_nil l rest) hlast
      obtain ⟨ls, hls⟩ := (readExpression_eq_ok hread).1
      have hahead : ∀ chars, step.ahead.getLast? = some (.text chars) →
          isComment chars = false := by
        intro chars hchars
        refine hlast chars ?_
        rw [hls, List.getLast?_append, hchars]
        rfl
      have hline := readExpression_line hhas hread
      rw [readFrom_eq, readExpression_append n [] hhas h]
      simp only [step] at hread ih hahead
      simp only [hread, ih hahead, hline, more, step]
      split
      · rename_i hrest
        simp only [hrest, List.cons_append]
      · rename_i hrest
        simp only [hrest]

end Seam

/-! ## Line numbers -/

/-- An expression further down. -/
def Expression.lowered (k : Nat) (e : Expression) : Expression := { e with line := e.line + k }

/-- An error further down. -/
def SyntaxError.lowered (k : Nat) (error : SyntaxError) : SyntaxError :=
  { error with line := error.line + k }

section Numbers

variable (n k : Nat)

theorem readContinuation_add (s : Stream) :
    readContinuation (n + k) s =
      ⟨(readContinuation n s).result.mapError (·.lowered k), (readContinuation n s).ahead,
        (readContinuation n s).line + k⟩ := by
  induction s generalizing n with
  | nil => rfl
  | cons l ahead ih =>
      have hnext : n + k + 1 = n + 1 + k := by omega
      rw [readContinuation, readContinuation]
      cases l.startsWithTab with
      | error error => rfl
      | ok tab =>
          cases tab with
          | false => rfl
          | true =>
              cases l.read with
              | error flaw => simp only [hnext]; rfl
              | ok chars =>
                  simp only [hnext, ih]
                  cases (readContinuation (n + 1) ahead).result with
                  | error error => rfl
                  | ok more => rfl

theorem readExpression_add (comment : Text) (s : Stream) :
    readExpression (n + k) comment s =
      ⟨((readExpression n comment s).result.mapError (·.lowered k)).map
          (Option.map (·.lowered k)),
        (readExpression n comment s).ahead, (readExpression n comment s).line + k⟩ := by
  have hnext : ∀ n, n + k + 1 = n + 1 + k := by omega
  induction s generalizing n comment with
  | nil =>
      rw [readExpression, readExpression, hnext]
      by_cases hnone : comment = []
      · rw [if_pos hnone, if_pos hnone]
        rfl
      · rw [if_neg hnone, if_neg hnone]
        by_cases hclosed : comment.getLast? = some '\n'
        · simp only [if_pos hclosed]
          rfl
        · simp only [if_neg hclosed]
          rfl
  | cons l ahead ih =>
      rw [readExpression, readExpression, hnext]
      cases l with
      | text chars =>
          simp only [Line.read]
          split
          · rfl
          · exact ih (n + 1) (comment ++ chars)
          · rfl
          · rfl
          · rw [readContinuation_add (n + 1) k]
            cases (readContinuation (n + 1) ahead).result with
            | error error => rfl
            | ok more => rfl
      | undecodable tab => rfl
      | broken tab error => rfl
      | failure error => rfl

/-- Reading further down gives the same, further down. -/
theorem readFrom_add (s : Stream) :
    readFrom (n + k) s =
      ((readFrom n s).1.map (·.lowered k), (readFrom n s).2.map (·.lowered k)) := by
  fun_induction readFrom n s with
  | case1 n => rw [readFrom]; rfl
  | case2 n l rest step error hread =>
      rw [readFrom_eq, readExpression_add]
      simp only [step] at hread
      simp only [hread]
      rfl
  | case3 n l rest step hread => cases (readExpression_eq_none hread).1
  | case4 n l rest step e hread more ih =>
      rw [readFrom_eq, readExpression_add]
      simp only [step] at hread ih
      simp only [hread, more, step]
      rw [ih]
      rfl

end Numbers

/-! ## Texts -/

namespace Text

/-- What ends with a separator is cut apart from what follows. -/
theorem pieces_append_of_getLast? {α : Type} [DecidableEq α] {sep : α} {as : List α}
    (h : as = [] ∨ as.getLast? = some sep) (rest : List α) :
    pieces sep (as ++ rest) = pieces sep as ++ pieces sep rest := by
  induction as with
  | nil => rfl
  | cons a as ih =>
      have hlast : (a :: as).getLast? = some sep := h.resolve_left (List.cons_ne_nil a as)
      rw [List.cons_append, pieces, pieces]
      by_cases hempty : as = []
      · subst hempty
        obtain rfl : a = sep := Option.some.inj hlast
        rw [if_pos rfl, if_pos rfl]
        rfl
      · rw [List.getLast?_cons_of_ne_nil hempty] at hlast
        rw [ih (.inr hlast)]
        by_cases ha : a = sep
        · rw [if_pos ha, if_pos ha]
          rfl
        · rw [if_neg ha, if_neg ha]
          obtain ⟨b, bs, rfl⟩ := List.exists_cons_of_ne_nil hempty
          obtain ⟨p, ps, hpieces⟩ := pieces_cons sep b bs
          rw [hpieces]
          rfl

/-- A text that ends with a line feed has as many lines as line feeds. -/
theorem length_physicalLines {t : Text} (h : t = [] ∨ t.getLast? = some '\n') :
    (physicalLines t).length = t.count '\n' := by
  rcases h with rfl | hlast
  · rfl
  · obtain ⟨most, rfl⟩ := List.getLast?_eq_some_iff.mp hlast
    have hpieces := pieces_closed (not_mem_of_mem_splitOn most) []
    rw [List.append_nil, closed_splitOn] at hpieces
    rw [physicalLines, hpieces, List.length_append, closed, List.length_map, length_splitOn,
      List.count_append]
    rfl

/-- A text that another may follow: it is empty, or it ends with a line feed and its last line is
    no comment. -/
def Complete (t : Text) : Prop :=
  t = [] ∨ (t.getLast? = some '\n' ∧ ∀ l ∈ (physicalLines t).getLast?, isComment l = false)

end Text

theorem Stream.ofText_append {t : Text} (h : t = [] ∨ t.getLast? = some '\n') (t' : Text) :
    Stream.ofText (t ++ t') = Stream.ofText t ++ Stream.ofText t' := by
  rw [ofText, Text.physicalLines, Text.pieces_append_of_getLast? h, List.map_append]
  rfl

theorem Stream.startsAnew_ofText {t : Text} (h : t.head? ≠ some '\t') :
    Stream.StartsAnew (Stream.ofText t) := by
  cases t with
  | nil =>
      intro l hl
      cases hl
  | cons c t =>
      obtain ⟨chars, ahead, hlines⟩ := Stream.ofText_cons c t
      rw [hlines]
      intro l hl
      obtain rfl := Option.some.inj hl
      have hc : c ≠ '\t' := by
        rintro rfl
        exact h rfl
      simpa [Line.startsWithTab] using hc

namespace Text.Complete

variable {t : Text}

theorem ofText_append (h : Text.Complete t) (t' : Text) :
    Stream.ofText (t ++ t') = Stream.ofText t ++ Stream.ofText t' :=
  Stream.ofText_append (h.imp_right And.left) t'

/-- Lines behind a text are read behind what is read of the text. -/
theorem readFrom_append (h : Text.Complete t) (n : Nat) {s : Stream} (hs : Stream.StartsAnew s) :
    readFrom n (Stream.ofText t ++ s) =
      match readFrom n (Stream.ofText t) with
      | (es, none) =>
          (es ++ (readFrom (n + (Stream.ofText t).length) s).1,
            (readFrom (n + (Stream.ofText t).length) s).2)
      | (es, some error) => (es, some error) := by
  refine LineScript.readFrom_append n ?_ hs
  intro chars hchars
  rcases h with rfl | ⟨-, hlast⟩
  · cases hchars
  · rw [Stream.ofText, List.getLast?_map] at hchars
    obtain ⟨l, hl, hline⟩ := Option.map_eq_some_iff.mp hchars
    cases hline
    exact hlast chars hl

/-- Nothing stops the reading of a text and the lines behind it if nothing stops either. -/
theorem readFrom_append_eq_none_iff (h : Text.Complete t) {n : Nat} {s : Stream}
    (hs : Stream.StartsAnew s) {es : List Expression} :
    readFrom n (Stream.ofText t ++ s) = (es, none) ↔
      ∃ above below, readFrom n (Stream.ofText t) = (above, none) ∧
        readFrom (n + (Stream.ofText t).length) s = (below, none) ∧ es = above ++ below := by
  rw [h.readFrom_append n hs]
  obtain ⟨above, _ | error⟩ := readFrom n (Stream.ofText t)
  · obtain ⟨below, stopped⟩ := readFrom (n + (Stream.ofText t).length) s
    constructor
    · intro heq
      obtain ⟨rfl, rfl⟩ := Prod.mk.inj heq
      exact ⟨above, below, rfl, rfl, rfl⟩
    · rintro ⟨above', below', habove, hbelow, rfl⟩
      cases habove
      cases hbelow
      rfl
  · constructor
    · intro heq
      cases heq
    · rintro ⟨above', below', habove, -⟩
      cases habove

/-- Behind a text that is read without an error another is read as it is on its own, further down
    by the lines of the first. -/
theorem readAll_append {t' : Text} (h : Text.Complete t) {es : List Expression}
    (hread : readAll (Stream.ofText t) = (es, none)) (hstart : t'.head? ≠ some '\t') :
    readAll (Stream.ofText (t ++ t')) =
      (es ++ (readAll (Stream.ofText t')).1.map (·.lowered (t.count '\n')),
        (readAll (Stream.ofText t')).2.map (·.lowered (t.count '\n'))) := by
  have hlines : (Stream.ofText t).length = t.count '\n' := by
    rw [Stream.ofText, List.length_map]
    exact Text.length_physicalLines (h.imp_right And.left)
  have hfirst : readFrom 0 (Stream.ofText t) = (es, none) := hread
  have hbelow := readFrom_add 0 (t.count '\n') (Stream.ofText t')
  rw [readAll, h.ofText_append, h.readFrom_append 0 (Stream.startsAnew_ofText hstart), hfirst,
    hlines]
  simp only [hbelow]
  rfl

end Text.Complete

/-- Reading is compositional. Let a text `t` parse, let it be empty or end with a line feed, its
    last line being no comment, and let `t'` not start with a tab. Then `t` with `t'` behind it
    parses if `t'` does, as the expressions of `t` and then those of `t'`, each further down by the
    number of line feeds in `t`. If `t'` does not parse, both together fail in the same way, with
    the line of the error as much further down. -/
theorem parse_append {t t' : Text} {es : List Expression} (hparse : parse t = .ok es)
    (hcomplete : t = [] ∨ (t.getLast? = some '\n' ∧
      ∀ l ∈ (Text.physicalLines t).getLast?, l.head? ≠ some '#'))
    (hstart : t'.head? ≠ some '\t') :
    let k := t.count '\n'
    (∀ es', parse t' = .ok es' →
      parse (t ++ t') = .ok (es ++ es'.map fun e => { e with line := e.line + k })) ∧
    ∀ error, parse t' = .error error →
      parse (t ++ t') = .error { error with line := error.line + k } := by
  have hseam : Text.Complete t := hcomplete.imp_right fun hend =>
    ⟨hend.1, fun l hl => by simpa [isComment] using hend.2 l hl⟩
  have hread := hseam.readAll_append (parse_eq_ok_iff.mp hparse) hstart
  refine ⟨fun es' hes' => ?_, fun error herror => ?_⟩
  · rw [parse_eq_ok_iff, hread, parse_eq_ok_iff.mp hes']
    rfl
  · rw [parse_eq_error_iff, hread, parse_eq_error_iff.mp herror]
    rfl

/-- A text with a comment and a continuation line, and behind it a comment with its command, or a
    line that starts with a space. -/
theorem parse_append_comment :
    let t := "# a\nsay x\n\ty\n".toList
    parse t = .ok [⟨2, "# a\n".toList, "say".toList, "x\ny".toList⟩] ∧
      parse (t ++ "# b\ngo\n".toList) =
        .ok [⟨2, "# a\n".toList, "say".toList, "x\ny".toList⟩,
          ⟨5, "# b\n".toList, "go".toList, []⟩] ∧
      parse (t ++ "go\n z\n".toList) = .error ⟨5, .leadingBlank⟩ := by
  intro t
  have hparse : parse t = .ok [⟨2, "# a\n".toList, "say".toList, "x\ny".toList⟩] :=
    parse_eq_ok_iff.mpr (by decide +kernel)
  have hcomplete : t = [] ∨ (t.getLast? = some '\n' ∧
      ∀ l ∈ (Text.physicalLines t).getLast?, l.head? ≠ some '#') :=
    .inr ⟨by decide +kernel, by decide +kernel⟩
  refine ⟨hparse, ?_, ?_⟩
  · exact (parse_append hparse hcomplete (by decide)).1 [⟨2, "# b\n".toList, "go".toList, []⟩]
      (parse_eq_ok_iff.mpr (by decide +kernel))
  · exact (parse_append hparse hcomplete (by decide)).2 ⟨2, .leadingBlank⟩
      (parse_eq_error_iff.mpr (by decide +kernel))

end LineScript
