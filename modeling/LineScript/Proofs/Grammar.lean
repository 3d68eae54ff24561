import LineScript.Proofs.Contents

/-!
# The line grammar

Reading takes continuation lines together with their command, so whether a line that starts with a
tab is in order seems to depend on all that was read before it. It does not: it shows in the line
directly above. This file states the grammar by line and line above, and shows that reading stops
at the first line that breaks it.

* `Malformed`: a line that breaks the grammar, given the line above it.
* `firstMalformed`: the first such line, found by looking at every line once.
* `readFrom_error`: reading stops there, whatever it has joined before.
* `drain_ofBytes_error_iff`: the same by line numbers, for every input.
-/

namespace LineScript

/-! ## Lines that break the grammar -/

/-- The byte of a space. -/
def spaceByte : UInt8 := 32

/-- The byte of a number sign. -/
def numberSignByte : UInt8 := 35

/-- Bytes that are the encoding of some text. -/
def IsUtf8 (l : Bytes) : Prop := ∃ t, l = encodeUtf8 t

theorem isUtf8_iff_isSome {l : Bytes} : IsUtf8 l ↔ (decodeUtf8 l).isSome = true := by
  rw [Option.isSome_iff_exists]
  exact exists_congr fun t => decodeUtf8_eq_some_iff.symm

instance (l : Bytes) : Decidable (IsUtf8 l) := decidable_of_iff _ isUtf8_iff_isSome.symm

/-- No line can be continued below this one: there is none, it is blank, or it is a comment. -/
def Shut : Option Bytes → Prop
  | none => True
  | some l => l = [newlineByte] ∨ l.head? = some numberSignByte

instance : (above : Option Bytes) → Decidable (Shut above)
  | none => .isTrue trivial
  | some l => inferInstanceAs (Decidable (l = [newlineByte] ∨ l.head? = some numberSignByte))

/-- A line that breaks the grammar when it stands below the line `above`, if there is one. -/
def Malformed (above : Option Bytes) (l : Bytes) : Prop :=
  ¬IsUtf8 l ∨ l.head? = some spaceByte ∨ (l.head? = some tabByte ∧ Shut above)

instance (above : Option Bytes) (l : Bytes) : Decidable (Malformed above l) :=
  inferInstanceAs (Decidable (_ ∨ _ ∨ _))

/-- What is wrong with a malformed line. -/
def lineFlaw (l : Bytes) : Flaw := if IsUtf8 l then .leadingBlank else .undecodable

/-- The first malformed line below `above` and behind `n` lines. -/
def firstMalformed (above : Option Bytes) (n : Nat) : List Bytes → Option SyntaxError
  | [] => none
  | l :: ls =>
      if Malformed above l then some ⟨n + 1, lineFlaw l⟩ else firstMalformed (some l) (n + 1) ls

section Lines

variable {above above' : Option Bytes} {n : Nat} {l : Bytes} {ls : List Bytes} {chars : Text}

theorem firstMalformed_of_malformed (h : Malformed above l) :
    firstMalformed above n (l :: ls) = some ⟨n + 1, lineFlaw l⟩ := if_pos h

theorem firstMalformed_of_not (h : ¬Malformed above l) :
    firstMalformed above n (l :: ls) = firstMalformed (some l) (n + 1) ls := if_neg h

/-- The line above counts only for a line that starts with a tab. -/
theorem firstMalformed_congr
    (h : ∀ l ∈ ls.head?, l.head? = some tabByte → (Shut above ↔ Shut above')) :
    firstMalformed above n ls = firstMalformed above' n ls := by
  cases ls with
  | nil => rfl
  | cons l ls =>
      have hsame : Malformed above l ↔ Malformed above' l :=
        or_congr_right (or_congr_right (and_congr_right (h l rfl)))
      by_cases hmal : Malformed above l
      · rw [firstMalformed_of_malformed hmal, firstMalformed_of_malformed (hsame.mp hmal)]
      · rw [firstMalformed_of_not hmal, firstMalformed_of_not (mt hsame.mpr hmal)]

/-- Below a line that cannot be continued the grammar starts anew. -/
theorem firstMalformed_of_shut (h : Shut above) :
    firstMalformed above n ls = firstMalformed none n ls :=
  firstMalformed_congr fun _ _ _ => iff_of_true h trivial

/-! ## The lines as they are read -/

/-- A line is text or is not UTF-8. -/
theorem Line.ofBytes_cases (l : Bytes) :
    (∃ chars, Line.ofBytes l = .text chars) ∨ ∃ tab, Line.ofBytes l = .undecodable tab := by
  rw [Line.ofBytes]
  split
  · exact .inl ⟨_, rfl⟩
  · exact .inr ⟨_, rfl⟩

/-- Whether a line continues the one above shows in its first byte, text or not. -/
theorem Line.startsWithTab_ofBytes (l : Bytes) :
    (Line.ofBytes l).startsWithTab = .ok (l.head? == some tabByte) := by
  rw [Line.ofBytes]
  split
  · rename_i chars hdecode
    obtain rfl := decodeUtf8_eq_some_iff.mp hdecode
    have htab := head?_encodeUtf8_iff (a := '\t') (by decide) chars
    refine congrArg Except.ok (Bool.eq_iff_iff.mpr ?_)
    rw [beq_iff_eq, beq_iff_eq]
    exact htab.symm
  · rfl

/-- A line that is no text is malformed wherever it stands. -/
theorem malformed_of_undecodable (above : Option Bytes) {tab : Bool}
    (h : Line.ofBytes l = .undecodable tab) : Malformed above l ∧ lineFlaw l = .undecodable := by
  have hinvalid : ¬IsUtf8 l := by
    rintro ⟨t, rfl⟩
    rw [Line.ofBytes_eq_text_iff.mpr rfl] at h
    cases h
  exact ⟨.inl hinvalid, if_neg hinvalid⟩

theorem lineFlaw_of_text (h : Line.ofBytes l = .text chars) : lineFlaw l = .leadingBlank :=
  if_pos ⟨chars, Line.ofBytes_eq_text_iff.mp h⟩

/-- A line of text is judged by its first character. -/
theorem malformed_text_iff (h : Line.ofBytes l = .text chars) :
    Malformed above l ↔
      chars.head? = some ' ' ∨ (chars.head? = some '\t' ∧ Shut above) := by
  obtain rfl := Line.ofBytes_eq_text_iff.mp h
  have hspace := head?_encodeUtf8_iff (a := ' ') (by decide) chars
  have htab := head?_encodeUtf8_iff (a := '\t') (by decide) chars
  show ¬IsUtf8 _ ∨ (_ = some (UInt8.ofNat ' '.val.toNat)) ∨
    (_ = some (UInt8.ofNat '\t'.val.toNat) ∧ _) ↔ _
  rw [hspace, htab]
  exact or_iff_right (not_not_intro ⟨chars, rfl⟩)

/-- Below a line of text nothing is continued if it starts with a number sign or is a line feed. -/
theorem shut_text_iff (h : Line.ofBytes l = .text chars)
    (hcut : l.head? = some newlineByte → l = [newlineByte]) :
    Shut (some l) ↔ chars.head? = some '\n' ∨ chars.head? = some '#' := by
  obtain rfl := Line.ofBytes_eq_text_iff.mp h
  have hnewline := head?_encodeUtf8_iff (a := '\n') (by decide) chars
  have hcomment := head?_encodeUtf8_iff (a := '#') (by decide) chars
  have hblank : encodeUtf8 chars = [newlineByte] ↔ chars.head? = some '\n' :=
    ⟨fun heq => hnewline.mp (by rw [heq]; rfl), fun hhead => hcut (hnewline.mpr hhead)⟩
  show _ = [newlineByte] ∨ (_ = some (UInt8.ofNat '#'.val.toNat)) ↔ _
  rw [hblank, hcomment]

end Lines

/-! ## Reading stops at the first malformed line -/

/-- A step of reading that agrees with the line grammar: its error is the one that is foreseen, and
    otherwise what is foreseen lies in the lines that are left of `ls`. -/
def Reading.Agrees {α : Type} (r : Reading α) (ls : List Bytes) (foreseen : Option SyntaxError) :
    Prop :=
  match r.result with
  | .error error => foreseen = some error
  | .ok _ => ∃ rest, rest <:+ ls ∧ r.ahead = rest.map Line.ofBytes ∧
      foreseen = firstMalformed none r.line rest

/-- What is made of the result does not matter. -/
theorem Reading.Agrees.map {α β : Type} {r : Reading α} {ls : List Bytes}
    {foreseen : Option SyntaxError} (h : r.Agrees ls foreseen) (f : α → β) :
    Reading.Agrees ⟨r.result.map f, r.ahead, r.line⟩ ls foreseen := by
  rcases r with ⟨_ | _, ahead, line⟩
  · exact h
  · exact h

/-- Nor does a line in front of the others that has been read. -/
theorem Reading.Agrees.cons {α : Type} {r : Reading α} {ls : List Bytes}
    {foreseen : Option SyntaxError} (h : r.Agrees ls foreseen) (l : Bytes) :
    r.Agrees (l :: ls) foreseen := by
  rcases r with ⟨_ | _, ahead, line⟩
  · exact h
  · obtain ⟨rest, hsuffix, hahead, hforeseen⟩ := h
    exact ⟨rest, hsuffix.trans (List.suffix_cons l ls), hahead, hforeseen⟩

/-- Continuation lines are taken as long as they are in order. -/
theorem readContinuation_agrees {above : Option Bytes} (n : Nat) {ls : List Bytes}
    (hopen : ¬Shut above) (hcut : ∀ l ∈ ls, l.head? = some newlineByte → l = [newlineByte]) :
    (readContinuation n (ls.map Line.ofBytes)).Agrees ls (firstMalformed above n ls) := by
  induction ls generalizing n above with
  | nil => exact ⟨[], List.suffix_refl [], rfl, rfl⟩
  | cons l ls ih =>
      rw [List.map_cons]
      by_cases htab : l.head? = some tabByte
      · rcases Line.ofBytes_cases l with ⟨chars, hl⟩ | ⟨tab, hl⟩
        · obtain ⟨rest, rfl⟩ : ∃ rest, chars = '\t' :: rest := by
            rw [Line.ofBytes_eq_text_iff.mp hl] at htab
            exact List.head?_eq_some_iff.mp
              ((head?_encodeUtf8_iff (a := '\t') (by decide) chars).mp htab)
          have hmal : ¬Malformed above l := by
            rw [malformed_text_iff hl]
            simp [hopen]
          have hnext : ¬Shut (some l) := by
            rw [shut_text_iff hl (hcut l List.mem_cons_self)]
            simp
          have hmore := ih (n + 1) hnext (fun l' hl' => hcut l' (List.mem_cons_of_mem l hl'))
          rw [hl, firstMalformed_of_not hmal, readContinuation_tab]
          exact (hmore.map (rest ++ ·)).cons l
        · obtain ⟨hmal, hflaw⟩ := malformed_of_undecodable above hl
          have hstart := Line.startsWithTab_ofBytes l
          rw [hl, htab] at hstart
          obtain rfl : tab = true := Except.ok.inj hstart
          rw [hl, firstMalformed_of_malformed hmal, hflaw]
          rfl
      · have hother : (Line.ofBytes l).startsWithTab = .ok false := by
          rw [Line.startsWithTab_ofBytes]
          simpa using htab
        rw [readContinuation_stop n _ hother]
        refine ⟨l :: ls, List.suffix_refl _, rfl, ?_⟩
        -- the line above does not count for a line that continues nothing
        refine firstMalformed_congr ?_
        intro l' hl' hhead
        obtain rfl := Option.some.inj hl'
        exact absurd hhead htab

/-- So are comment lines and the line of the expression itself. -/
theorem readExpression_agrees (n : Nat) (comment : Text) {ls : List Bytes}
    (hcut : ∀ l ∈ ls, l.head? = some newlineByte → l = [newlineByte]) :
    (readExpression n comment (ls.map Line.ofBytes)).Agrees ls (firstMalformed none n ls) := by
  induction ls generalizing n comment with
  | nil =>
      rw [List.map_nil, readExpression]
      split
      · exact ⟨[], List.suffix_refl [], rfl, rfl⟩
      · exact ⟨[], List.suffix_refl [], rfl, rfl⟩
  | cons l ls ih =>
      have hrest : ∀ l' ∈ ls, l'.head? = some newlineByte → l' = [newlineByte] :=
        fun l' hl' => hcut l' (List.mem_cons_of_mem l hl')
      rw [List.map_cons, readExpression]
      rcases Line.ofBytes_cases l with ⟨chars, hl⟩ | ⟨tab, hl⟩
      · have hmal : Malformed none l ↔ _ := malformed_text_iff hl
        have hshut := shut_text_iff hl (hcut l List.mem_cons_self)
        simp only [hl, Line.read]
        split
        · rename_i hnewline
          rw [hnewline] at hmal hshut
          refine ⟨ls, List.suffix_cons l ls, rfl, ?_⟩
          rw [firstMalformed_of_not (by simp [hmal]), firstMalformed_of_shut (by simp [hshut])]
        · rename_i hcomment
          rw [hcomment] at hmal hshut
          rw [firstMalformed_of_not (by simp [hmal]), firstMalformed_of_shut (by simp [hshut])]
          exact (ih (n + 1) (comment ++ chars) hrest).cons l
        · rename_i hspace
          show firstMalformed none n (l :: ls) = some ⟨n + 1, .leadingBlank⟩
          rw [firstMalformed_of_malformed (hmal.mpr (.inl hspace)), lineFlaw_of_text hl]
        · rename_i htab
          show firstMalformed none n (l :: ls) = some ⟨n + 1, .leadingBlank⟩
          rw [firstMalformed_of_malformed (hmal.mpr (.inr ⟨htab, trivial⟩)), lineFlaw_of_text hl]
        · rename_i hnewline hcomment hspace htab
          have hfine : ¬Malformed none l := by
            rw [hmal]
            exact not_or.mpr ⟨hspace, fun h => htab h.1⟩
          have hopen : ¬Shut (some l) := by
            rw [hshut]
            exact not_or.mpr ⟨hnewline, hcomment⟩
          rw [firstMalformed_of_not hfine]
          exact ((readContinuation_agrees (n + 1) hopen hrest).map _).cons l
      · obtain ⟨hmal, hflaw⟩ := malformed_of_undecodable none hl
        rw [hl, firstMalformed_of_malformed hmal, hflaw]
        rfl

/-- Reading stops at the first malformed line, and nowhere else. -/
theorem readFrom_error {n : Nat} {ls : List Bytes}
    (hcut : ∀ l ∈ ls, l.head? = some newlineByte → l = [newlineByte]) :
    (readFrom n (ls.map Line.ofBytes)).2 = firstMalformed none n ls := by
  generalize hs : ls.map Line.ofBytes = s
  fun_induction readFrom n s generalizing ls with
  | case1 n =>
      rw [List.map_eq_nil_iff.mp hs]
      rfl
  | case2 n l rest step error =>
      rename_i hread
      have hagrees := readExpression_agrees n [] hcut
      rw [hs, Reading.Agrees, hread] at hagrees
      exact hagrees.symm
  | case3 n l rest step =>
      rename_i hread
      have hagrees := readExpression_agrees n [] hcut
      rw [hs, Reading.Agrees, hread] at hagrees
      obtain ⟨left, -, hahead, hforeseen⟩ := hagrees
      rw [(readExpression_eq_ok hread).2 rfl] at hahead
      rw [hforeseen, List.map_eq_nil_iff.mp hahead.symm]
      rfl
  | case4 n l rest step e =>
      rename_i hread more ih
      have hagrees := readExpression_agrees n [] hcut
      rw [hs, Reading.Agrees, hread] at hagrees
      obtain ⟨left, hsuffix, hahead, hforeseen⟩ := hagrees
      rw [hforeseen]
      exact ih (fun l' hl' => hcut l' (hsuffix.subset hl')) hahead.symm

/-! ## Line numbers -/

/-- The line above the one of index `i`, where the first of `ls` stands below `above`. -/
def lineAbove (above : Option Bytes) (ls : List Bytes) : Nat → Option Bytes
  | 0 => above
  | i + 1 => ls[i]?

/-- The line of index `i` breaks the grammar. -/
def MalformedAt (above : Option Bytes) (ls : List Bytes) (i : Nat) : Prop :=
  ∃ l, ls[i]? = some l ∧ Malformed (lineAbove above ls i) l

section Positions

variable {above : Option Bytes} {l : Bytes} {ls : List Bytes} {n : Nat}

theorem lineAbove_cons (above : Option Bytes) (l : Bytes) (ls : List Bytes) (i : Nat) :
    lineAbove above (l :: ls) (i + 1) = lineAbove (some l) ls i := by
  cases i with
  | zero => rfl
  | succ i => rfl

theorem malformedAt_zero : MalformedAt above (l :: ls) 0 ↔ Malformed above l := by
  constructor
  · rintro ⟨l', hl', hmal⟩
    obtain rfl := Option.some.inj hl'
    exact hmal
  · intro hmal
    exact ⟨l, rfl, hmal⟩

theorem malformedAt_succ {i : Nat} :
    MalformedAt above (l :: ls) (i + 1) ↔ MalformedAt (some l) ls i := by
  rw [MalformedAt, MalformedAt, lineAbove_cons, List.getElem?_cons_succ]

/-- No line is found if none is malformed, and only then. -/
theorem firstMalformed_eq_none_iff :
    firstMalformed above n ls = none ↔ ∀ i, ¬MalformedAt above ls i := by
  induction ls generalizing above n with
  | nil =>
      refine iff_of_true rfl ?_
      rintro i ⟨l, hl, -⟩
      cases hl
  | cons l ls ih =>
      by_cases hmal : Malformed above l
      · rw [firstMalformed_of_malformed hmal]
        exact iff_of_false (by simp) fun h => h 0 (malformedAt_zero.mpr hmal)
      · rw [firstMalformed_of_not hmal, ih]
        constructor
        · rintro h (_ | i)
          · exact mt malformedAt_zero.mp hmal
          · exact mt malformedAt_succ.mp (h i)
        · intro h i
          exact mt malformedAt_succ.mpr (h (i + 1))

/-- What is found is the first malformed line, with its number. -/
theorem firstMalformed_eq_some_iff {error : SyntaxError} :
    firstMalformed above n ls = some error ↔
      ∃ i l, error = ⟨n + i + 1, lineFlaw l⟩ ∧ ls[i]? = some l ∧
        MalformedAt above ls i ∧ ∀ j < i, ¬MalformedAt above ls j := by
  induction ls generalizing above n with
  | nil =>
      refine iff_of_false (by simp [firstMalformed]) ?_
      rintro ⟨i, l, -, hl, -⟩
      cases hl
  | cons l ls ih =>
      by_cases hmal : Malformed above l
      · rw [firstMalformed_of_malformed hmal, Option.some.injEq]
        constructor
        · rintro rfl
          refine ⟨0, l, rfl, rfl, malformedAt_zero.mpr hmal, ?_⟩
          intro j hj
          exact absurd hj (Nat.not_lt_zero j)
        · rintro ⟨_ | i, l', rfl, hl', -, hfirst⟩
          · obtain rfl := Option.some.inj hl'
            rfl
          · exact absurd (malformedAt_zero.mpr hmal) (hfirst 0 (Nat.succ_pos i))
      · rw [firstMalformed_of_not hmal, ih]
        constructor
        · rintro ⟨i, l', rfl, hl', hat, hfirst⟩
          refine ⟨i + 1, l', by rw [Nat.add_right_comm n 1 i, Nat.add_assoc n i 1], hl',
            malformedAt_succ.mpr hat, ?_⟩
          rintro (_ | j) hj
          · exact mt malformedAt_zero.mp hmal
          · exact mt malformedAt_succ.mp (hfirst j (Nat.lt_of_succ_lt_succ hj))
        · rintro ⟨_ | i, l', rfl, hl', hat, hfirst⟩
          · exact absurd (malformedAt_zero.mp hat) hmal
          · refine ⟨i, l', by rw [Nat.add_right_comm n 1 i, Nat.add_assoc n i 1], hl',
              malformedAt_succ.mp hat, ?_⟩
            intro j hj
            exact mt malformedAt_succ.mpr (hfirst (j + 1) (Nat.succ_lt_succ hj))

end Positions

/-! ## Whole inputs -/

/-- The error that ends the reading of an input is its first malformed line. -/
theorem drain_ofBytes_error (b : Bytes) :
    (Reader.ofStream (.ofBytes b none)).drain.2.1 =
      firstMalformed none 0 (Text.pieces newlineByte b) := by
  have hcut : ∀ l ∈ Text.pieces newlineByte b, l.head? = some newlineByte → l = [newlineByte] := by
    intro l hl hhead
    obtain ⟨a, rest, rfl, hrest⟩ := Text.piece_eq_cons hl
    obtain rfl := Option.some.inj hhead
    rw [hrest rfl]
  have hdrain := congrArg Prod.snd
    (Reader.drain_eq_rest (r := Reader.ofStream (.ofBytes b none)) rfl)
  rw [← readFrom_error hcut]
  exact hdrain

/-- The texts of the two flaws tell them apart. -/
theorem message_lineFlaw (l : Bytes) :
    ((lineFlaw l).message = "line is not valid UTF-8" ↔ ¬IsUtf8 l) ∧
      ((lineFlaw l).message = "unexpected whitespace at start of line" ↔ IsUtf8 l) := by
  by_cases hvalid : IsUtf8 l
  · rw [lineFlaw, if_pos hvalid]
    exact ⟨iff_of_false (by decide) (not_not_intro hvalid), iff_of_true rfl hvalid⟩
  · rw [lineFlaw, if_neg hvalid]
    exact ⟨iff_of_true rfl hvalid, iff_of_false (by decide) hvalid⟩

/-- The reader accepts exactly the line grammar and reports the first line that breaks it. For
    every input, cut behind its line feeds: reading it to its end or an error ends with the end of
    input if no line is malformed; otherwise it ends with an error that has the number of the first
    malformed line, and says that the line is not UTF-8 if it is not, and else that it starts with
    a blank. -/
theorem drain_ofBytes_error_iff (b : Bytes) :
    ((Reader.ofStream (.ofBytes b none)).drain.2.1 = none ↔
      ∀ i, ¬MalformedAt none (Text.pieces newlineByte b) i) ∧
    ∀ error, (Reader.ofStream (.ofBytes b none)).drain.2.1 = some error ↔
      ∃ i l, (Text.pieces newlineByte b)[i]? = some l ∧
        MalformedAt none (Text.pieces newlineByte b) i ∧
        (∀ j < i, ¬MalformedAt none (Text.pieces newlineByte b) j) ∧
        error = ⟨i + 1, if IsUtf8 l then .leadingBlank else .undecodable⟩ ∧
        (error.flaw.message = "line is not valid UTF-8" ↔ ¬IsUtf8 l) ∧
        (error.flaw.message = "unexpected whitespace at start of line" ↔ IsUtf8 l) := by
  rw [drain_ofBytes_error]
  refine ⟨firstMalformed_eq_none_iff, ?_⟩
  intro error
  rw [firstMalformed_eq_some_iff]
  constructor
  · rintro ⟨i, l, rfl, hl, hat, hfirst⟩
    refine ⟨i, l, hl, hat, hfirst, ?_, message_lineFlaw l⟩
    rw [Nat.zero_add]
    rfl
  · rintro ⟨i, l, hl, hat, hfirst, rfl, -⟩
    refine ⟨i, l, ?_, hl, hat, hfirst⟩
    rw [Nat.zero_add]
    rfl

end LineScript
