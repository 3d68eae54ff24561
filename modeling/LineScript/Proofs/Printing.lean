import LineScript.Proofs.Reading
import LineScript.Proofs.Trimming

/-!
# Printing and reading

`Expression.toSource` prints an expression so that it can be read again, but not every expression
comes back as it was: the printer trims by one set of blanks and the reader by another, and one
final line feed is lost. The expressions that come back are exactly the canonical ones.

The route: the reader takes the lines of one printed command off a text whose rest does not start
with a tab (`readExpression_toSource`), and what it finds there is the body up to what printing
takes away from it (`reprintedBody`). So a command comes back if and only if printing takes
nothing away.

* `readFrom_toSource`: a printed list of canonical expressions is read back.
* `canonical_of_readFrom`: a list that is read back was canonical.
* `parse_toSource_iff_canonical`: both, for whole texts.
-/

namespace LineScript

namespace Expression

/-! ## Canonical expressions -/

/-- An expression that printing and reading leave as it is: a blank line without a body, or a
    command whose name and body are as a reader finds them on the page. -/
def Canonical (e : Expression) : Prop :=
  (e.name = [] ∧ e.body = []) ∨
    (e.name ≠ [] ∧ (∀ c ∈ e.name, c ≠ ' ' ∧ c ≠ '\t' ∧ c ≠ '\n') ∧
      (∀ c ∈ e.name.head?, isBlank c = false) ∧ (∀ c ∈ e.name.getLast?, isBlank c = false) ∧
      e.name.head? ≠ some '#' ∧
      e.body.getLast? ≠ some '\n' ∧ ∀ c ∈ e.body.head?, c = '\n' ∨ isBlank c = false)

/-- Expressions in one text, one after another: comments are not printed, and each stands on the
    line behind the line feeds printed before it. -/
def reprinted : Nat → List Expression → List Expression
  | _, [] => []
  | n, e :: es =>
      { e with line := n + 1, comment := [] } :: reprinted (n + e.toSource.count '\n') es

/-- A name as reading leaves it; it may be empty and may start with a number sign. -/
structure ReadName (name : Text) : Prop where
  /-- It ends before the first space, tab or line feed. -/
  chars : ∀ c ∈ name, c ≠ ' ' ∧ c ≠ '\t' ∧ c ≠ '\n'
  /-- It does not start with a blank. -/
  head : ∀ c ∈ name.head?, isBlank c = false
  /-- It does not end with a blank. -/
  last : ∀ c ∈ name.getLast?, isBlank c = false

/-- The name of a canonical expression is as reading leaves it. -/
theorem Canonical.readName {e : Expression} (h : e.Canonical) : ReadName e.name := by
  rcases h with ⟨hname, -⟩ | ⟨-, hchars, hhead, hlast, -⟩
  · rw [hname]; exact ⟨nofun, nofun, nofun⟩
  · exact ⟨hchars, hhead, hlast⟩

/-- Splitting off a name gives one as reading leaves it. -/
theorem readName_splitName (t : Text) : ReadName (splitName t).1 := by
  refine ⟨?_, Text.head?_trim _, Text.getLast?_trim _⟩
  intro c hc
  have hin := List.all_eq_true.mp List.all_takeWhile c (Text.mem_of_mem_trim hc)
  simpa [and_assoc] using hin

theorem readName_of_splitName {name : Text} (h : (splitName name).1 = name) : ReadName name :=
  h ▸ readName_splitName name

/-- A name is split off again from what is printed behind it. -/
theorem splitName_append {name tail : Text} (hname : ReadName name)
    (htail : ∀ c ∈ tail.head?, c = ' ' ∨ c = '\n') :
    splitName (name ++ tail) = (name, tail.dropWhile fun c => c = ' ' || c = '\t') := by
  have hchars : ∀ c ∈ name, (c ≠ ' ' && c ≠ '\t' && c ≠ '\n') = true := by
    intro c hc
    obtain ⟨hspace, htab, hnewline⟩ := hname.chars c hc
    simp [hspace, htab, hnewline]
  have hstop : ∀ c ∈ tail.head?, ¬(c ≠ ' ' && c ≠ '\t' && c ≠ '\n') = true := by
    intro c hc
    rcases htail c hc with rfl | rfl <;> decide
  have htake : tail.takeWhile (fun c => c ≠ ' ' && c ≠ '\t' && c ≠ '\n') = [] := by
    cases tail with
    | nil => rfl
    | cons c tail => exact List.takeWhile_cons_of_neg (hstop c rfl)
  have hdrop : tail.dropWhile (fun c => c ≠ ' ' && c ≠ '\t' && c ≠ '\n') = tail := by
    cases tail with
    | nil => rfl
    | cons c tail => exact List.dropWhile_cons_of_neg (hstop c rfl)
  simp only [splitName]
  rw [List.takeWhile_append_of_pos hchars, List.dropWhile_append_of_pos hchars, htake, hdrop,
    List.append_nil, Text.trim_eq_self hname.head hname.last]

/-! ## What printing takes away -/

/-- What is printed behind the name, before its lines are moved to the right. -/
def printedTail (body : Text) : Text :=
  if (Text.stripNewline body).head? = some '\n' then Text.stripNewline body
  else match Text.trimStart (Text.stripNewline body) with
    | [] => []
    | t => ' ' :: t

/-- What is left of a body behind its name. -/
def reprintedBody (body : Text) : Text :=
  if (Text.stripNewline body).head? = some '\n' then Text.stripNewline body
  else Text.trimStart (Text.stripNewline body)

theorem toSource_eq (e : Expression) :
    e.toSource = e.name ++ Text.indented (printedTail e.body) ++ ['\n'] := rfl

/-- A space or a line feed follows the name. -/
theorem head?_printedTail (body : Text) :
    ∀ c ∈ (printedTail body).head?, c = ' ' ∨ c = '\n' := by
  intro c hc
  rw [printedTail] at hc
  by_cases hnewline : (Text.stripNewline body).head? = some '\n'
  · rw [if_pos hnewline, hnewline] at hc
    exact .inr (Option.some.inj hc).symm
  · rw [if_neg hnewline] at hc
    split at hc
    · cases hc
    · exact .inl (Option.some.inj hc).symm

/-- A reader finds what is left of the body. -/
theorem dropWhile_printedTail (body : Text) :
    ((printedTail body).dropWhile fun c => c = ' ' || c = '\t') = reprintedBody body := by
  rw [printedTail, reprintedBody]
  by_cases hnewline : (Text.stripNewline body).head? = some '\n'
  · rw [if_pos hnewline, if_pos hnewline]
    obtain ⟨rest, hrest⟩ := List.head?_eq_some_iff.mp hnewline
    rw [hrest]
    rfl
  · rw [if_neg hnewline, if_neg hnewline]
    have hhead := Text.head?_trimStart (Text.stripNewline body)
    cases htrim : Text.trimStart (Text.stripNewline body) with
    | nil => rfl
    | cons c rest =>
        rw [htrim] at hhead
        -- a trimmed text starts with no blank, so only the printed space is dropped
        have hc : (c = ' ' || c = '\t') = false := by
          have hblank := hhead c rfl
          rw [Bool.or_eq_false_iff, decide_eq_false_iff_not, decide_eq_false_iff_not]
          constructor
          · rintro rfl; exact absurd hblank (by decide)
          · rintro rfl; exact absurd hblank (by decide)
        show ((c :: rest).dropWhile fun c => c = ' ' || c = '\t') = c :: rest
        rw [List.dropWhile_cons, hc]
        rfl

/-- Nothing is added to a body. -/
theorem length_reprintedBody_le (body : Text) :
    (reprintedBody body).length ≤ (Text.stripNewline body).length := by
  rw [reprintedBody]
  split
  · exact Nat.le_refl _
  · exact (List.dropWhile_suffix isBlank).length_le

/-- Printing takes nothing away from a body that does not end with a line feed and does not start
    with a blank that is no line feed, and from no other. -/
theorem reprintedBody_eq_self_iff {body : Text} :
    reprintedBody body = body ↔
      body.getLast? ≠ some '\n' ∧ ∀ c ∈ body.head?, c = '\n' ∨ isBlank c = false := by
  constructor
  · intro h
    have hstrip : body.getLast? ≠ some '\n' := by
      intro hlast
      have hshort := length_reprintedBody_le body
      rw [h, Text.stripNewline, if_pos hlast, List.length_dropLast] at hshort
      have hempty : body = [] := List.length_eq_zero_iff.mp (by omega)
      rw [hempty] at hlast
      cases hlast
    refine ⟨hstrip, ?_⟩
    intro c hc
    rw [reprintedBody, show Text.stripNewline body = body from if_neg hstrip] at h
    by_cases hnewline : body.head? = some '\n'
    · exact .inl (Option.some.inj (hc.symm.trans hnewline))
    · rw [if_neg hnewline] at h
      refine .inr (Text.head?_trimStart body c ?_)
      rw [h]
      exact hc
  · rintro ⟨hlast, hhead⟩
    have hstrip : Text.stripNewline body = body := if_neg hlast
    rw [reprintedBody, hstrip]
    by_cases hnewline : body.head? = some '\n'
    · rw [if_pos hnewline]
    · rw [if_neg hnewline]
      refine Text.trimStart_eq_self ?_
      intro c hc
      rcases hhead c hc with rfl | hblank
      · exact absurd hc hnewline
      · exact hblank

/-! ## Names that were read -/

/-- What is read has a name as reading leaves it. -/
theorem readName_of_mem_readFrom (n : Nat) (s : Stream) :
    ∀ e ∈ (readFrom n s).1, ReadName e.name := by
  refine forall_mem_readFrom ?_ n s
  intro n s e h
  obtain ⟨line, more, rfl | ⟨t, rfl⟩⟩ := readExpression_eq_some h
  · exact ⟨nofun, nofun, nofun⟩
  · exact readName_splitName (Text.stripNewline t)

/-! ## One printed expression -/

/-- Printing puts the lines of the name and its tail on the page. -/
theorem toSource_eq_indented {e : Expression} (hname : ReadName e.name) :
    e.toSource = Text.indented (e.name ++ printedTail e.body) ++ ['\n'] := by
  have hnewline : '\n' ∉ e.name := fun hmem => (hname.chars _ hmem).2.2 rfl
  rw [toSource_eq, Text.indented_append hnewline]

/-- A command that was printed is read back up to what printing takes from its body, provided
    that the line behind it is no continuation. -/
theorem readExpression_toSource {e : Expression} (hname : ReadName e.name) (hne : e.name ≠ [])
    (hcomment : e.name.head? ≠ some '#') (n : Nat) {rest : Text} (hrest : rest.head? ≠ some '\t') :
    readExpression n [] (Stream.ofText (e.toSource ++ rest)) =
      ⟨.ok (some { e with line := n + 1, comment := [], body := reprintedBody e.body }),
        Stream.ofText rest, n + e.toSource.count '\n'⟩ := by
  obtain ⟨c, name, hcons⟩ := List.exists_cons_of_ne_nil hne
  obtain ⟨hspace, htab, hnewline⟩ := hname.chars c (by rw [hcons]; exact List.mem_cons_self)
  have hsharp : c ≠ '#' := fun heq => hcomment (by rw [hcons, heq]; rfl)
  have htext : e.name ++ printedTail e.body = c :: (name ++ printedTail e.body) := by
    rw [hcons, List.cons_append]
  have hcount : e.toSource.count '\n' = (e.name ++ printedTail e.body).count '\n' + 1 := by
    rw [toSource_eq_indented hname, List.count_append, Text.count_indented]
    rfl
  rw [hcount, toSource_eq_indented hname, htext,
    readExpression_indented n [] hnewline hsharp hspace htab hrest, ← htext, Expression.ofText,
    Text.stripNewline_append, splitName_append hname (head?_printedTail e.body),
    dropWhile_printedTail]

/-- A blank line that was printed is read back, with nothing behind its name. -/
theorem readExpression_toSource_blank {e : Expression} (hname : e.name = []) (hbody : e.body = [])
    (n : Nat) (rest : Text) :
    readExpression n [] (Stream.ofText (e.toSource ++ rest)) =
      ⟨.ok (some { e with line := n + 1, comment := [] }), Stream.ofText rest,
        n + e.toSource.count '\n'⟩ := by
  obtain ⟨line, comment, name, body⟩ := e
  obtain rfl : name = [] := hname
  obtain rfl : body = [] := hbody
  have hsource : toSource ⟨line, comment, [], []⟩ ++ rest =
      (Text.closed [[]]).flatten ++ rest := rfl
  have hlines : ∀ l ∈ [([] : Text)], '\n' ∉ l := by decide
  rw [hsource, Stream.ofText_closed hlines]
  rfl

/-- Canonical expressions are read back as they are. -/
theorem Canonical.readExpression_toSource {e : Expression} (h : e.Canonical) (n : Nat)
    {rest : Text} (hrest : rest.head? ≠ some '\t') :
    readExpression n [] (Stream.ofText (e.toSource ++ rest)) =
      ⟨.ok (some { e with line := n + 1, comment := [] }), Stream.ofText rest,
        n + e.toSource.count '\n'⟩ := by
  have hname := h.readName
  rcases h with ⟨hblank, hbody⟩ | ⟨hne, -, -, -, hcomment, hlast, hhead⟩
  · exact readExpression_toSource_blank hblank hbody n rest
  · have hbody := reprintedBody_eq_self_iff.mpr ⟨hlast, hhead⟩
    rw [Expression.readExpression_toSource hname hne hcomment n hrest, hbody]

/-- What is printed without a name starts with a line feed or a space. -/
theorem head?_toSource_of_name_eq_nil {e : Expression} (hname : e.name = []) :
    e.toSource.head? = some '\n' ∨ e.toSource.head? = some ' ' := by
  have hhead := head?_printedTail e.body
  rw [toSource_eq, hname, List.nil_append, List.head?_append, Text.head?_indented]
  cases htail : (printedTail e.body).head? with
  | none => exact .inl rfl
  | some c =>
      rcases hhead c htail with rfl | rfl
      · exact .inr rfl
      · exact .inl rfl

/-- What is printed does not look like a continuation. -/
theorem head?_toSource {e : Expression} (hname : ReadName e.name) :
    e.toSource.head? ≠ some '\t' := by
  intro h
  cases hcons : e.name with
  | nil =>
      rcases head?_toSource_of_name_eq_nil hcons with hhead | hhead
      · rw [hhead] at h; exact absurd (Option.some.inj h) (by decide)
      · rw [hhead] at h; exact absurd (Option.some.inj h) (by decide)
  | cons c name =>
      obtain ⟨-, htab, -⟩ := hname.chars c (by rw [hcons]; exact List.mem_cons_self)
      rw [toSource_eq, hcons] at h
      exact htab (Option.some.inj h)

/-- Nothing but a canonical expression is read back as it is. -/
theorem canonical_of_readExpression_toSource {e : Expression} (hname : ReadName e.name) {n : Nat}
    {rest : Text} (hrest : rest.head? ≠ some '\t')
    (h : (readExpression n [] (Stream.ofText (e.toSource ++ rest))).result =
      .ok (some { e with line := n + 1, comment := [] })) : e.Canonical := by
  by_cases hblank : e.name = []
  · -- without a name the page starts with a blank line, or with an error
    refine .inl ⟨hblank, ?_⟩
    rcases head?_toSource_of_name_eq_nil hblank with hhead | hhead
    · obtain ⟨t, hsource⟩ := List.head?_eq_some_iff.mp hhead
      obtain ⟨chars, ahead, hlines⟩ := Stream.ofText_cons '\n' (t ++ rest)
      rw [hsource, List.cons_append, hlines, readExpression_newline] at h
      have hread := Option.some.inj (Except.ok.inj h)
      exact (congrArg body hread).symm
    · obtain ⟨t, hsource⟩ := List.head?_eq_some_iff.mp hhead
      obtain ⟨chars, ahead, hlines⟩ := Stream.ofText_cons ' ' (t ++ rest)
      rw [hsource, List.cons_append, hlines, readExpression_space] at h
      cases h
  · have hcomment : e.name.head? ≠ some '#' := by
      -- the page starts with a comment, which the next expression would keep
      intro hsharp
      obtain ⟨name, hcons⟩ := List.head?_eq_some_iff.mp hsharp
      obtain ⟨chars, ahead, hlines⟩ := Stream.ofText_cons '#'
        (name ++ Text.indented (printedTail e.body) ++ ['\n'] ++ rest)
      rw [toSource_eq, hcons, List.cons_append, List.cons_append, List.cons_append, hlines,
        readExpression_comment] at h
      exact comment_ne_nil_of_readExpression (List.cons_ne_nil '#' chars) h rfl
    rw [readExpression_toSource hname hblank hcomment n hrest] at h
    have hread := Option.some.inj (Except.ok.inj h)
    obtain ⟨hlast, hhead⟩ := reprintedBody_eq_self_iff.mp (congrArg body hread)
    exact .inr ⟨hblank, hname.chars, hname.head, hname.last, hcomment, hlast, hhead⟩

/-! ## Printed lists -/

/-- A printed list does not start like a continuation. -/
theorem head?_flatMap_toSource {es : List Expression} (hnames : ∀ e ∈ es, ReadName e.name) :
    (es.flatMap toSource).head? ≠ some '\t' := by
  cases es with
  | nil => exact nofun
  | cons e es =>
      have hhead := head?_toSource (hnames e List.mem_cons_self)
      rw [List.flatMap_cons, List.head?_append]
      cases hsource : e.toSource.head? with
      | none =>
          rw [toSource_eq, List.head?_eq_none_iff] at hsource
          exact absurd hsource (List.append_ne_nil_of_right_ne_nil _ (List.cons_ne_nil _ _))
      | some c => rw [hsource] at hhead; exact hhead

/-- A printed list of canonical expressions is read back. -/
theorem readFrom_toSource {es : List Expression} (h : ∀ e ∈ es, e.Canonical) (n : Nat) :
    readFrom n (Stream.ofText (es.flatMap toSource)) = (reprinted n es, none) := by
  induction es generalizing n with
  | nil => rw [readFrom_eq]; rfl
  | cons e es ih =>
      have hes : ∀ e ∈ es, e.Canonical := fun e he => h e (List.mem_cons_of_mem _ he)
      have hrest := head?_flatMap_toSource fun e he => (hes e he).readName
      rw [readFrom_eq, List.flatMap_cons,
        (h e List.mem_cons_self).readExpression_toSource n hrest]
      show (_ :: (readFrom _ (Stream.ofText (es.flatMap toSource))).1, _) = _
      rw [ih hes]
      rfl

/-- A list that is read back was canonical. -/
theorem canonical_of_readFrom {es : List Expression} (hnames : ∀ e ∈ es, ReadName e.name) {n : Nat}
    (h : readFrom n (Stream.ofText (es.flatMap toSource)) = (reprinted n es, none)) :
    ∀ e ∈ es, e.Canonical := by
  induction es generalizing n with
  | nil => exact nofun
  | cons e es ih =>
      have hes : ∀ e ∈ es, ReadName e.name := fun e he => hnames e (List.mem_cons_of_mem _ he)
      have hrest := head?_flatMap_toSource hes
      rw [readFrom_eq, List.flatMap_cons] at h
      have hcanonical : e.Canonical := by
        refine canonical_of_readExpression_toSource (n := n) (hnames e List.mem_cons_self) hrest ?_
        generalize hpage : Stream.ofText (e.toSource ++ es.flatMap toSource) = page at h ⊢
        cases hread : (readExpression n [] page).result with
        | error error => rw [hread] at h; cases h
        | ok found =>
            cases found with
            | none => rw [hread] at h; cases h
            | some e' =>
                rw [hread] at h
                rw [(List.cons.inj (Prod.mk.inj h).1).1]
      rw [hcanonical.readExpression_toSource n hrest] at h
      obtain ⟨hlist, herror⟩ := Prod.mk.inj h
      intro e' he'
      rcases List.mem_cons.mp he' with rfl | he'
      · exact hcanonical
      · exact ih hes (Prod.ext (List.cons.inj hlist).2 herror) e' he'

/-! ## Whole texts -/

/-- The ways in which an expression that was read fails to be canonical. -/
theorem not_canonical_iff {e : Expression} (hname : ReadName e.name) :
    ¬e.Canonical ↔
      e.body.getLast? = some '\n' ∨ (∃ c ∈ e.body.head?, c ≠ '\n' ∧ isBlank c = true) ∨
        e.name.head? = some '#' ∨ (e.name = [] ∧ e.body ≠ []) := by
  constructor
  · intro h
    by_cases hblank : e.name = []
    · exact .inr (.inr (.inr ⟨hblank, fun hbody => h (.inl ⟨hblank, hbody⟩)⟩))
    · by_cases hlast : e.body.getLast? = some '\n'
      · exact .inl hlast
      · by_cases hcomment : e.name.head? = some '#'
        · exact .inr (.inr (.inl hcomment))
        · refine .inr (.inl (Classical.byContradiction fun hnone => h (.inr ?_)))
          refine ⟨hblank, hname.chars, hname.head, hname.last, hcomment, hlast, ?_⟩
          intro c hc
          by_cases hnewline : c = '\n'
          · exact .inl hnewline
          · refine .inr (Bool.eq_false_iff.mpr fun hc' => hnone ⟨c, hc, hnewline, hc'⟩)
  · rintro h (⟨hblank, hbody⟩ | ⟨hne, -, -, -, hcomment, hlast, hhead⟩)
    · rw [hblank, hbody] at h
      rcases h with h | ⟨c, h, -⟩ | h | ⟨-, h⟩
      · cases h
      · cases h
      · cases h
      · exact h rfl
    · rcases h with h | ⟨c, hc, hnewline, hc'⟩ | h | ⟨h, -⟩
      · exact hlast h
      · rcases hhead c hc with heq | hfalse
        · exact hnewline heq
        · exact Bool.eq_false_iff.mp hfalse hc'
      · exact hcomment h
      · exact hne h

/-- Expressions that were read are read back from the printed page if and only if they are
    canonical. -/
theorem parse_flatMap_toSource_iff {es : List Expression} (hnames : ∀ e ∈ es, ReadName e.name) :
    parse (es.flatMap toSource) = .ok (reprinted 0 es) ↔ ∀ e ∈ es, e.Canonical := by
  rw [parse_eq_ok_iff]
  exact ⟨canonical_of_readFrom hnames, fun h => readFrom_toSource h 0⟩

/-- Printing and parsing are inverse exactly on canonical expressions: every list of them comes
    back, without its comments and with the line numbers of the page; a list that was parsed comes
    back only if all of it is canonical; and what a single parsed expression can lack is a last
    line with something on it, a body that starts behind its blanks, a name that is no comment, or
    a name at all. -/
theorem parse_toSource_iff_canonical :
    (∀ es : List Expression, (∀ e ∈ es, e.Canonical) →
        parse (es.flatMap toSource) = .ok (reprinted 0 es)) ∧
      (∀ text es, parse text = .ok es →
        parse (es.flatMap toSource) = .ok (reprinted 0 es) → ∀ e ∈ es, e.Canonical) ∧
      ∀ text es, parse text = .ok es → ∀ e ∈ es,
        (parse e.toSource ≠ .ok [{ e with line := 1, comment := [] }] ↔
          e.body.getLast? = some '\n' ∨ (∃ c ∈ e.body.head?, c ≠ '\n' ∧ isBlank c = true) ∨
            e.name.head? = some '#' ∨ (e.name = [] ∧ e.body ≠ [])) := by
  have hread : ∀ text es, parse text = .ok es → ∀ e ∈ es, ReadName e.name := by
    intro text es h
    have hnames := readName_of_mem_readFrom 0 (Stream.ofText text)
    rw [show readFrom 0 (Stream.ofText text) = (es, none) from parse_eq_ok_iff.mp h] at hnames
    exact hnames
  refine ⟨?_, ?_, ?_⟩
  · intro es h
    exact (parse_flatMap_toSource_iff fun e he => (h e he).readName).mpr h
  · intro text es h
    exact (parse_flatMap_toSource_iff (hread text es h)).mp
  · intro text es h e he
    have hname := hread text es h e he
    have hsingle := parse_flatMap_toSource_iff (List.forall_mem_singleton.mpr hname)
    rw [List.flatMap_singleton, List.forall_mem_singleton] at hsingle
    rw [← not_canonical_iff hname, ← hsingle]
    rfl

/-- A command on two lines and a blank line come back; a command that ends with an empty
    continuation line is parsed and does not. -/
theorem parse_toSource_say :
    parse ([⟨4, [], ['s', 'a', 'y'], ['h', 'i', '\n', 'y', 'o', 'u']⟩, ⟨9, ['#'], [], []⟩].flatMap
        toSource) =
      .ok [⟨1, [], ['s', 'a', 'y'], ['h', 'i', '\n', 'y', 'o', 'u']⟩, ⟨3, [], [], []⟩] ∧
    parse ['s', 'a', 'y', ' ', 'h', 'i', '\n', '\t', '\n'] =
      .ok [⟨1, [], ['s', 'a', 'y'], ['h', 'i', '\n']⟩] ∧
    parse (toSource ⟨1, [], ['s', 'a', 'y'], ['h', 'i', '\n']⟩) ≠
      .ok [⟨1, [], ['s', 'a', 'y'], ['h', 'i', '\n']⟩] := by
  obtain ⟨hback, -, haltered⟩ := parse_toSource_iff_canonical
  have hparse : parse ['s', 'a', 'y', ' ', 'h', 'i', '\n', '\t', '\n'] =
      .ok [⟨1, [], ['s', 'a', 'y'], ['h', 'i', '\n']⟩] := parse_eq_ok_iff.mpr (by decide +kernel)
  refine ⟨hback _ ?_, hparse, (haltered _ _ hparse _ List.mem_cons_self).mpr (.inl rfl)⟩
  intro e he
  rcases List.mem_cons.mp he with rfl | he
  · exact .inr (by simp [isBlank])
  · rw [List.mem_singleton.mp he]
    exact .inl ⟨rfl, rfl⟩

end Expression

end LineScript
