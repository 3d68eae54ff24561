import LineScript.Proofs.Chains
import LineScript.Proofs.Grammar

/-!
# Files that fail

A file may fail to open, or fail after some of its bytes, in the middle of a line, of a command
with its continuation lines, or of a comment. Nothing that was cut off may then be taken for the
whole. This file compares a run with the run in which some files were made to fail: both go the
same way until a failure is met, and there the second one stops.

* `Stream.CutShort`: a stream up to a failure. `Stream.cutShort_ofBytes` says that this is what
  becomes of bytes of which only the first ones are delivered.
* `readFrom_cutShort`: what is read of such a stream.
* `evalExpressions_faulty`: what is evaluated when files may fail.
-/

namespace LineScript

/-! ## Streams up to a failure -/

/-- The first stream is the second one up to a failure, which strikes before a line or inside of
    it. A line that was started still shows whether it starts with a tab. -/
inductive Stream.CutShort : Stream → Stream → Prop where
  | before (error : AccessError) (whole : Stream) : CutShort [.failure error] whole
  | inside {l : Line} {tab : Bool} (hstart : l.startsWithTab = .ok tab) (error : AccessError)
      (rest : Stream) : CutShort [.broken tab error] (l :: rest)
  | behind (l : Line) {cut whole : Stream} (h : CutShort cut whole) :
      CutShort (l :: cut) (l :: whole)

namespace Stream

/-- There is always the failure. -/
theorem CutShort.ne_nil {cut whole : Stream} (h : CutShort cut whole) : cut ≠ [] := by
  cases h with
  | before => exact List.cons_ne_nil _ _
  | inside => exact List.cons_ne_nil _ _
  | behind => exact List.cons_ne_nil _ _

section Bytes

variable {a b : Bytes}

/-- A line with its line feed is the first one, however the bytes end. -/
theorem ofBytes_append_newline (ha : newlineByte ∉ a) (b : Bytes) (ending : Option AccessError) :
    ofBytes (a ++ newlineByte :: b) ending =
      Line.ofBytes (a ++ [newlineByte]) :: ofBytes b ending := by
  cases ending with
  | none =>
      simp only [ofBytes, Text.pieces_append_sep ha]
      rfl
  | some error =>
      simp only [ofBytes, Text.pieces_append_sep ha]
      exact if_pos List.getLast?_concat

/-- The first line of bytes starts as the bytes do, however they end. -/
theorem startsWithTab_ofBytes (ha : a ≠ []) (hfree : newlineByte ∉ a) (b : Bytes)
    (ending : Option AccessError) :
    ∃ l rest, ofBytes (a ++ b) ending = l :: rest ∧
      l.startsWithTab = .ok (a.head? == some tabByte) := by
  obtain ⟨p, ps, hpieces⟩ : ∃ p ps, Text.pieces newlineByte (a ++ b) = (a ++ p) :: ps := by
    rw [Text.pieces_append ha hfree]
    cases Text.pieces newlineByte b with
    | nil => exact ⟨[], [], by rw [List.append_nil]⟩
    | cons p ps => exact ⟨p, ps, rfl⟩
  have hhead : (a ++ p).head? = a.head? := by
    obtain ⟨c, cs, rfl⟩ := List.exists_cons_of_ne_nil ha
    rfl
  rw [← hhead]
  cases ending with
  | none =>
      simp only [ofBytes, hpieces]
      exact ⟨_, _, rfl, Line.startsWithTab_ofBytes _⟩
  | some error =>
      simp only [ofBytes, hpieces, failing]
      split
      · exact ⟨_, _, rfl, Line.startsWithTab_ofBytes _⟩
      · exact ⟨_, _, rfl, rfl⟩

/-- Bytes without a line feed that end in a failure are a line that is broken off. -/
theorem ofBytes_broken (ha : a ≠ []) (hfree : newlineByte ∉ a) (error : AccessError) :
    ofBytes a (some error) = [.broken (a.head? == some tabByte) error] := by
  have hpieces : Text.pieces newlineByte a = [a] := by
    have happend := Text.pieces_append ha hfree []
    rw [List.append_nil] at happend
    exact happend
  have hlast : a.getLast? ≠ some newlineByte := fun h => hfree (List.mem_of_getLast? h)
  simp only [ofBytes, hpieces]
  exact if_neg hlast

end Bytes

/-- Bytes of which only the first ones are delivered are cut short, wherever that is. -/
theorem cutShort_ofBytes (first rest : Bytes) (error : AccessError)
    (ending : Option AccessError) :
    CutShort (ofBytes first (some error)) (ofBytes (first ++ rest) ending) := by
  by_cases hnewline : newlineByte ∈ first
  · obtain ⟨a, b, rfl, hfree⟩ := List.eq_append_cons_of_mem hnewline
    rw [List.append_assoc, List.cons_append, ofBytes_append_newline hfree,
      ofBytes_append_newline hfree]
    exact .behind _ (cutShort_ofBytes b rest error ending)
  · by_cases hempty : first = []
    · subst hempty
      exact .before error _
    · obtain ⟨l, ls, hlines, hstart⟩ := startsWithTab_ofBytes hempty hnewline rest ending
      rw [ofBytes_broken hempty hnewline, hlines]
      exact .inside hstart error ls
termination_by first.length
decreasing_by
  simp only [*, List.length_append, List.length_cons]
  omega

end Stream

/-! ## Reading up to a failure -/

/-- A step of reading that goes the same way on a stream that is cut short, unless it meets the
    failure. -/
def Reading.Abridges {α : Type} (cut whole : Reading α) : Prop :=
  (∃ line error, cut.result = .error ⟨line, .unreadable error⟩) ∨
    (cut.result = whole.result ∧ cut.line = whole.line ∧ cut.ahead.CutShort whole.ahead)

/-- What is made of the result does not matter. -/
theorem Reading.Abridges.map {α β : Type} {cut whole : Reading α} (h : cut.Abridges whole)
    (f : α → β) :
    Reading.Abridges ⟨cut.result.map f, cut.ahead, cut.line⟩
      ⟨whole.result.map f, whole.ahead, whole.line⟩ := by
  rcases h with ⟨line, error, hresult⟩ | ⟨hresult, hline, hahead⟩
  · refine .inl ⟨line, error, ?_⟩
    simp only [hresult]
    rfl
  · refine .inr ⟨?_, hline, hahead⟩
    simp only [hresult]

section Reading

variable {cut whole : Stream}

/-- Continuation lines are complete, or the failure is met. -/
theorem readContinuation_cutShort (h : cut.CutShort whole) (n : Nat) :
    (readContinuation n cut).Abridges (readContinuation n whole) := by
  induction h generalizing n with
  | before error whole => exact .inl ⟨n, error, rfl⟩
  | @inside l tab hstart error rest =>
      cases tab with
      | true => exact .inl ⟨n + 1, error, rfl⟩
      | false =>
          rw [readContinuation_stop n rest hstart, readContinuation_stop n [] rfl]
          exact .inr ⟨rfl, rfl, .inside hstart error rest⟩
  | behind l h ih =>
      rw [readContinuation, readContinuation]
      split
      · exact .inr ⟨rfl, rfl, .behind l h⟩
      · exact .inr ⟨rfl, rfl, .behind l h⟩
      · split
        · exact .inr ⟨rfl, rfl, h⟩
        · exact (ih (n + 1)).map _

/-- So is an expression. -/
theorem readExpression_cutShort (h : cut.CutShort whole) (n : Nat) (comment : Text) :
    (readExpression n comment cut).Abridges (readExpression n comment whole) := by
  induction h generalizing n comment with
  | before error whole => exact .inl ⟨n + 1, error, rfl⟩
  | inside hstart error rest => exact .inl ⟨n + 1, error, rfl⟩
  | behind l h ih =>
      rw [readExpression, readExpression]
      split
      · exact .inr ⟨rfl, rfl, h⟩
      · split
        · exact .inr ⟨rfl, rfl, h⟩
        · exact ih (n + 1) _
        · exact .inr ⟨rfl, rfl, h⟩
        · exact .inr ⟨rfl, rfl, h⟩
        · exact (readContinuation_cutShort h (n + 1)).map _

end Reading

/-- What is read is the same, or the first part of it and then a failure. -/
def Abridged (cut whole : List Expression × Option SyntaxError) : Prop :=
  cut = whole ∨
    (cut.1 <+: whole.1 ∧ ∃ line error, cut.2 = some ⟨line, .unreadable error⟩)

/-- Of a stream that is cut short no expression is read that the whole stream does not have, and
    the failure is met unless an earlier line stops both. -/
theorem readFrom_cutShort {cut whole : Stream} (h : cut.CutShort whole) (n : Nat) :
    Abridged (readFrom n cut) (readFrom n whole) := by
  rw [readFrom_eq n cut, readFrom_eq n whole]
  rcases readExpression_cutShort h n [] with ⟨line, error, hresult⟩ | ⟨hresult, hline, hahead⟩
  · rw [hresult]
    exact .inr ⟨List.nil_prefix, line, error, rfl⟩
  · rw [← hresult]
    cases hfound : (readExpression n [] cut).result with
    | error error => exact .inl rfl
    | ok found =>
        cases found with
        | none => exact .inl rfl
        | some e =>
            have hlength := length_ahead_readExpression_le n [] cut
            have hpos := List.length_pos_iff.mpr h.ne_nil
            rw [← hline]
            rcases readFrom_cutShort hahead (readExpression n [] cut).line with
              hsame | ⟨hfirst, hfails⟩
            · rw [hsame]
              exact .inl rfl
            · exact .inr ⟨(List.cons_prefix_cons).mpr ⟨rfl, hfirst⟩, hfails⟩
termination_by cut.length

/-! ## Files that are made to fail -/

/-- What opening gives once a file has been made to fail: nothing has changed, or the file does not
    open, or only the first `n` of its bytes are delivered and then every read fails. -/
inductive Faulty : Except AccessError Stream → Except AccessError Stream → Prop where
  | sound (file : Except AccessError Stream) : Faulty file file
  | shut (error : AccessError) (file : Except AccessError Stream) : Faulty (.error error) file
  | cut (bytes : Bytes) (ending : Option AccessError) (n : Nat) (error : AccessError) :
      Faulty (.ok (.ofBytes (bytes.take n) (some error))) (.ok (.ofBytes bytes ending))

/-- What is read of a file that opens although it was made to fail. -/
theorem Faulty.abridged {stream : Stream} {file : Except AccessError Stream}
    (h : Faulty (.ok stream) file) :
    ∃ whole, file = .ok whole ∧ Abridged (readAll stream) (readAll whole) := by
  cases h with
  | sound => exact ⟨stream, rfl, .inl rfl⟩
  | cut bytes ending n error =>
      refine ⟨_, rfl, readFrom_cutShort ?_ 0⟩
      have hcut := Stream.cutShort_ofBytes (bytes.take n) (bytes.drop n) error ending
      rw [List.take_append_drop] at hcut
      exact hcut

namespace Evaluation

variable {cut whole : Evaluation}

/-- An evaluation is the same, or gives the first results and then stops because a file cannot be
    opened or read. -/
def Abridges (cut whole : Evaluation) : Prop :=
  cut = whole ∨
    (cut.results <+: whole.results ∧
      ∃ error access, cut.error = some error ∧ error.cause.access = some access)

/-- An evaluation that is stopped by a failure at once. -/
theorem abridges_stop {reg : Registry} {error : ExpansionError} {access : AccessError}
    (haccess : error.cause.access = some access) (whole : Evaluation) :
    (stop reg error).Abridges whole :=
  .inr ⟨List.nil_prefix, error, access, rfl, haccess⟩

/-- Going on only adds results. -/
theorem results_prefix_andThen (ev : Evaluation) (next : Registry → Evaluation) :
    ev.results <+: (ev.andThen next).results := by
  rw [andThen]
  split
  · exact List.prefix_refl _
  · exact List.prefix_append _ _

/-- Evaluations go on in step until the first of them is stopped. -/
theorem Abridges.andThen {next next' : Registry → Evaluation} (h : cut.Abridges whole)
    (hnext : ∀ reg, (next reg).Abridges (next' reg)) :
    (cut.andThen next).Abridges (whole.andThen next') := by
  rcases h with rfl | ⟨hfirst, error, access, herror, haccess⟩
  · rcases cut with ⟨results, _ | error, reg⟩
    · rcases hnext reg with hsame | ⟨hfirst, hfails⟩
      · refine .inl ?_
        show (next reg).after results = (next' reg).after results
        rw [hsame]
      · exact .inr ⟨(List.prefix_append_right_inj results).mpr hfirst, hfails⟩
    · exact .inl rfl
  · have hstops : cut.andThen next = cut := by
      rw [Evaluation.andThen, herror]
    rw [hstops]
    exact .inr ⟨hfirst.trans (results_prefix_andThen whole next'), error, access, herror, haccess⟩

end Evaluation

section Files

variable {fs faulty : FileSystem} {o : Options}

/-- An expression is evaluated in step if the files that it may splice are. -/
theorem evalExpression_faulty (h : ∀ name, Faulty (faulty.access name) (fs.access name))
    {opened : List Text} {e : Expanded} {reg : Registry}
    (hsplice : ∀ target stream whole, opened.contains target = false →
      faulty.access target = .ok stream → fs.access target = .ok whole →
      Abridged (readAll stream) (readAll whole) →
      (evalExpressions faulty o (target :: opened) target (readAll stream).2 (readAll stream).1
          reg).Abridges
        (evalExpressions fs o (target :: opened) target (readAll whole).2 (readAll whole).1
          reg)) :
    (evalExpression faulty o opened e reg).Abridges (evalExpression fs o opened e reg) := by
  by_cases hinclude : e.name = includeWord
  · cases htarget : includeTarget o e.body with
    | error cause =>
        rw [evalExpression_unnamed hinclude htarget, evalExpression_unnamed hinclude htarget]
        exact .inl rfl
    | ok target =>
        cases hopen : opened.contains target with
        | true =>
            rw [evalExpression_reopened hinclude htarget hopen,
              evalExpression_reopened hinclude htarget hopen]
            exact .inl rfl
        | false =>
            have hfile := h target
            cases haccess : faulty.access target with
            | error error =>
                rw [evalExpression_unopened hinclude htarget hopen haccess]
                exact Evaluation.abridges_stop rfl _
            | ok stream =>
                rw [haccess] at hfile
                obtain ⟨whole, hwhole, habridged⟩ := hfile.abridged
                rw [evalExpression_opened hinclude htarget hopen haccess,
                  evalExpression_opened hinclude htarget hopen hwhole]
                exact hsplice target stream whole hopen haccess hwhole habridged
  · rw [evalExpression, evalExpression, if_neg hinclude, if_neg hinclude]
    exact .inl rfl

/-- The expressions of a file are evaluated in step until a failure is met, in this file or in one
    that it splices. -/
theorem evalExpressions_faulty (h : ∀ name, Faulty (faulty.access name) (fs.access name))
    {opened : List Text} {file : Text} {malformed malformed' : Option SyntaxError}
    {raws raws' : List Expression} {reg : Registry}
    (hread : Abridged (raws, malformed) (raws', malformed')) :
    (evalExpressions faulty o opened file malformed raws reg).Abridges
      (evalExpressions fs o opened file malformed' raws' reg) := by
  match raws with
  | [] =>
      rcases hread with hsame | ⟨-, line, error, hfails⟩
      · obtain ⟨rfl, rfl⟩ := Prod.mk.inj hsame
        refine .inl ?_
        rw [evalExpressions.eq_def, evalExpressions.eq_def]
      · obtain rfl : malformed = some ⟨line, .unreadable error⟩ := hfails
        rw [evalExpressions]
        exact Evaluation.abridges_stop rfl _
  | raw :: raws =>
      -- the same expression is the next one on both sides
      obtain ⟨rest', rfl, hrest⟩ : ∃ rest', raws' = raw :: rest' ∧
          Abridged (raws, malformed) (rest', malformed') := by
        rcases hread with hsame | ⟨⟨more, hmore⟩, hfails⟩
        · obtain ⟨rfl, rfl⟩ := Prod.mk.inj hsame
          exact ⟨raws, rfl, .inl rfl⟩
        · exact ⟨raws ++ more, hmore.symm, .inr ⟨List.prefix_append _ _, hfails⟩⟩
      rw [evalExpressions, evalExpressions]
      refine Evaluation.Abridges.andThen ?_ fun reg => evalExpressions_faulty h hrest
      refine evalExpression_faulty h fun target stream whole hclosed haccess hwhole habridged => ?_
      exact evalExpressions_faulty h habridged
termination_by (closedNames faulty opened, raws.length)
decreasing_by
  · exact .left _ _ (closedNames_cons_lt (FileSystem.mem_names_of_access haccess) hclosed)
  · exact .right _ (Nat.lt_succ_self _)

/-- So is a script. -/
theorem evaluate_faulty (h : ∀ name, Faulty (faulty.access name) (fs.access name))
    (script : Text) : (evaluate faulty o script).Abridges (evaluate fs o script) := by
  have hfile := h script
  cases haccess : faulty.access script with
  | error error =>
      rw [evaluate, haccess]
      exact Evaluation.abridges_stop rfl _
  | ok stream =>
      rw [haccess] at hfile
      obtain ⟨whole, hwhole, habridged⟩ := hfile.abridged
      rw [evaluate_of_access haccess, evaluate_of_access hwhole]
      exact evalExpressions_faulty h habridged

/-- A failure of the file layer never makes for wrong results. Let some files be made to fail: they
    do not open, or deliver only so many of their first bytes and then fail. Then a script expands
    to exactly the same results, with the same end, or to the first of these results and then to an
    error that carries a failure of the file layer, of reading a line or of opening a file. -/
theorem expandScript_faulty (h : ∀ name, Faulty (faulty.access name) (fs.access name))
    (o : Options) (script : Text) :
    expandScript faulty o script = expandScript fs o script ∨
      ((expandScript faulty o script).1 <+: (expandScript fs o script).1 ∧
        ∃ error access, (expandScript faulty o script).2 = some error ∧
          error.cause.access = some access) := by
  rw [expandScript_eq_evaluate, expandScript_eq_evaluate]
  rcases evaluate_faulty (o := o) h script with hsame | hfails
  · rw [hsame]
    exact .inl rfl
  · exact .inr hfails

end Files

/-- A script fails inside of the second line of a command, of which only the tab is delivered: the
    command is not taken for one of a single line. -/
theorem expandScript_faulty_inside_command :
    let bytes := encodeUtf8 "say 1\nsay 2\n\t3\n".toList
    let fs : FileSystem := { files := [(['m'], .ok (.ofBytes bytes none))] }
    let faulty : FileSystem :=
      { files := [(['m'], .ok (.ofBytes (bytes.take 13) (some ⟨.other, "read failed"⟩)))] }
    (∀ name, Faulty (faulty.access name) (fs.access name)) ∧
      (expandScript fs {} ['m']).1.map (·.body) = [['1'], ['2', '\n', '3']] ∧
      (expandScript faulty {} ['m']).1.map (·.body) = [['1']] ∧
      (expandScript faulty {} ['m']).1 <+: (expandScript fs {} ['m']).1 ∧
      ∃ error access, (expandScript faulty {} ['m']).2 = some error ∧
        error.cause.access = some access := by
  intro bytes
  have hread : readAll (.ofBytes bytes none) =
      ([⟨1, [], "say".toList, ['1']⟩, ⟨2, [], "say".toList, ['2', '\n', '3']⟩], none) := by
    decide +kernel
  have hcut : readAll (.ofBytes (bytes.take 13) (some ⟨.other, "read failed"⟩)) =
      ([⟨1, [], "say".toList, ['1']⟩], some ⟨3, .unreadable ⟨.other, "read failed"⟩⟩) := by
    decide +kernel
  clear_value bytes
  intro fs faulty
  have hfaulty : ∀ name, Faulty (faulty.access name) (fs.access name) := by
    intro name
    by_cases hm : name = ['m']
    · subst hm
      exact .cut bytes none 13 _
    · have hmissing : faulty.access name = fs.access name := by
        simp [FileSystem.access, fs, faulty, Ne.symm hm]
      rw [hmissing]
      exact .sound _
  have hsay : ∀ (g : FileSystem) (line : Nat) (body : Text) (malformed : Option SyntaxError)
      (raws : List Expression),
      evalExpressions g {} [['m']] ['m'] malformed (⟨line, [], "say".toList, body⟩ :: raws) {} =
        (evalExpressions g {} [['m']] ['m'] malformed raws {}).after
          [⟨⟨line, [], "say".toList, body⟩, ['m'], []⟩] := by
    intro g line body malformed raws
    rw [evalExpressions, evalExpression_command (show "say".toList ≠ _ by decide)
      (show "say".toList ≠ _ by decide), evalCommand_plain rfl, Evaluation.give_andThen]
    rfl
  have hwhole : evaluate fs {} ['m'] = .give {} [⟨⟨1, [], "say".toList, ['1']⟩, ['m'], []⟩,
      ⟨⟨2, [], "say".toList, ['2', '\n', '3']⟩, ['m'], []⟩] := by
    rw [evaluate_of_access (show fs.access ['m'] = _ from rfl), hread]
    simp only
    rw [hsay, hsay, evalExpressions]
    rfl
  obtain ⟨error, hstops⟩ : ∃ error, evaluate faulty {} ['m'] =
      ⟨[⟨⟨1, [], "say".toList, ['1']⟩, ['m'], []⟩], some error, {}⟩ := by
    rw [evaluate_of_access (show faulty.access ['m'] = _ from rfl), hcut]
    simp only
    rw [hsay, evalExpressions]
    exact ⟨_, rfl⟩
  refine ⟨hfaulty, ?_, ?_, ?_⟩
  · rw [expandScript_eq_evaluate, hwhole]
    rfl
  · rw [expandScript_eq_evaluate, hstops]
    rfl
  · refine (expandScript_faulty hfaulty {} ['m']).resolve_left ?_
    rw [expandScript_eq_evaluate, expandScript_eq_evaluate, hwhole, hstops]
    intro hsame
    cases congrArg Prod.snd hsame

end LineScript
