import LineScript.Proofs.Agreement
import LineScript.Proofs.Joining
import LineScript.Proofs.Likeness
import LineScript.Proofs.Printing

/-!
# Including is pasting

An `include` is evaluated by opening another file, with its own lines, its own name in every
message and one more name on the list of open files. If the run does not fail, none of this shows:
the text of the file may stand in place of the directive.

Reading is compositional (`Joining`), so the pasted script has the expressions of the file where
the directive was, on other lines. Evaluation does not look at places (`Likeness`), and of the open
files it only asks whether a file is among them.
-/

namespace LineScript

/-! ## The directive -/

/-- The line that includes the file of a path. -/
def includeLine (path : Text) : Text := includeWord ++ ' ' :: path ++ ['\n']

theorem readName_includeWord : Expression.ReadName includeWord :=
  Expression.readName_of_splitName (by decide +kernel)

theorem Text.stripNewline_append_left {as : Text} (h : as.getLast? ≠ some '\n') (t : Text) :
    Text.stripNewline (as ++ t) = as ++ Text.stripNewline t := by
  cases t with
  | nil =>
      rw [List.append_nil, Text.stripNewline, if_neg h]
      exact (List.append_nil as).symm
  | cons c t =>
      rw [Text.stripNewline, Text.stripNewline, List.getLast?_append, List.getLast?_cons,
        Option.some_or]
      split
      · exact List.dropLast_append_of_ne_nil (List.cons_ne_nil c t)
      · rfl

/-- Nothing is read only of nothing. -/
theorem readFrom_eq_nil {n : Nat} {s : Stream} (h : readFrom n s = ([], none)) : s = [] := by
  rw [readFrom_eq] at h
  split at h
  · cases h
  · rename_i hnone
    exact (readExpression_eq_none hnone).1
  · cases h

section Directive

variable {path : Text} {e : Expression}

/-- The first line of the directive has the word and the space behind it. -/
theorem Stream.ofText_includeLine (path : Text) :
    ∃ chars ahead, Stream.ofText (includeLine path) =
      .text (includeWord ++ ' ' :: chars) :: ahead := by
  have hpieces : Text.pieces '\n' ((includeWord ++ [' ']) ++ (path ++ ['\n'])) = _ :=
    Text.pieces_append (by decide) (by decide) (path ++ ['\n'])
  have hline : includeLine path = (includeWord ++ [' ']) ++ (path ++ ['\n']) := by
    simp [includeLine]
  rw [Stream.ofText, Text.physicalLines, hline, hpieces]
  split
  · exact ⟨[], [], rfl⟩
  · rename_i p ps hrest
    exact ⟨p, ps.map .text, by simp⟩

/-- A command whose text starts with the word and a space is a splice. -/
theorem name_of_includeWord (line : Nat) (comment t : Text) :
    (Expression.ofText line comment (includeWord ++ ' ' :: t)).name = includeWord := by
  have hstrip : Text.stripNewline (includeWord ++ ' ' :: t) =
      includeWord ++ (' ' :: Text.stripNewline t) := by
    have hspace : Text.stripNewline ((includeWord ++ [' ']) ++ t) = _ :=
      Text.stripNewline_append_left (by decide) t
    simpa using hspace
  show (splitName (Text.stripNewline (includeWord ++ ' ' :: t))).1 = _
  rw [hstrip, Expression.splitName_append readName_includeWord]
  intro c hc
  exact .inl (Option.some.inj hc).symm

/-- So the directive is read as a splice, of which nothing is left behind. -/
theorem readExpression_includeLine (h : parse (includeLine path) = .ok [e]) :
    e.name = includeWord ∧
      (readExpression 0 [] (Stream.ofText (includeLine path))).result = .ok (some e) ∧
      (readExpression 0 [] (Stream.ofText (includeLine path))).ahead = [] := by
  have hall := parse_eq_ok_iff.mp h
  rw [readAll, readFrom_eq] at hall
  split at hall
  · cases hall
  · cases hall
  · rename_i first hread
    obtain ⟨hes, hnone⟩ := Prod.mk.inj hall
    obtain ⟨rfl, hrest⟩ := List.cons.inj hes
    refine ⟨?_, hread, readFrom_eq_nil (Prod.ext hrest hnone)⟩
    obtain ⟨chars, ahead, hlines⟩ := Stream.ofText_includeLine path
    have hcommand := readExpression_command 0 [] ("nclude ".toList ++ chars) ahead
      (c := 'i') (by decide) (by decide) (by decide) (by decide)
    rw [hlines] at hread
    rw [show includeWord ++ ' ' :: chars = 'i' :: ("nclude ".toList ++ chars) from rfl,
      hcommand] at hread
    cases htail : (readContinuation 1 ahead).result with
    | error error =>
        simp only [htail] at hread
        cases hread
    | ok tail =>
        simp only [htail] at hread
        obtain rfl := Option.some.inj (Except.ok.inj hread)
        exact name_of_includeWord 1 [] (chars ++ tail)

theorem startsAnew_includeLine (path : Text) (s : Stream) :
    Stream.StartsAnew (Stream.ofText (includeLine path) ++ s) := by
  obtain ⟨chars, ahead, hlines⟩ := Stream.ofText_includeLine path
  rw [hlines]
  intro l hl
  obtain rfl := Option.some.inj hl
  rfl

/-- The directive is read as one expression, and then what stands behind it. -/
theorem readFrom_includeLine (h : parse (includeLine path) = .ok [e]) (n : Nat) {s : Stream}
    (hs : Stream.StartsAnew s) :
    readFrom n (Stream.ofText (includeLine path) ++ s) =
      (e.lowered n :: (readFrom (n + (Stream.ofText (includeLine path)).length) s).1,
        (readFrom (n + (Stream.ofText (includeLine path)).length) s).2) := by
  obtain ⟨-, hread, hahead⟩ := readExpression_includeLine h
  -- the line with the word is no comment, so the directive ends before the seam
  have hmain : Stream.HasMain (Stream.ofText (includeLine path)) := by
    obtain ⟨chars, ahead, hlines⟩ := Stream.ofText_includeLine path
    rw [hlines]
    refine ⟨_, List.mem_cons_self, ?_⟩
    rintro _ ⟨⟩
    rfl
  have hline := readExpression_line hmain hread
  rw [hahead, List.length_nil, Nat.add_zero, Nat.zero_add] at hline
  have hfirst := readExpression_add 0 n [] (Stream.ofText (includeLine path))
  rw [Nat.zero_add, hread, hahead, hline, Nat.add_comm _ n] at hfirst
  rw [readFrom_eq, readExpression_append n [] hmain hs, hfirst]
  rfl

end Directive

/-! ## Expressions on other lines -/

theorem map_content_lowered (k : Nat) (es : List Expression) :
    (es.map (·.lowered k)).map Expression.content = es.map Expression.content := by
  rw [List.map_map]
  rfl

/-- What is read says the same from every line on. -/
theorem readFrom_content (n m : Nat) {s : Stream} {es : List Expression}
    (h : readFrom n s = (es, none)) :
    ∃ es', readFrom m s = (es', none) ∧
      es.map Expression.content = es'.map Expression.content := by
  have hn := readFrom_add 0 n s
  have hm := readFrom_add 0 m s
  rw [Nat.zero_add] at hn hm
  rw [h] at hn
  obtain ⟨hes, hnone⟩ := Prod.mk.inj hn
  refine ⟨(readFrom 0 s).1.map (·.lowered m), ?_, ?_⟩
  · rw [hm, Option.map_eq_none_iff.mp hnone.symm]
    rfl
  · rw [hes, map_content_lowered, map_content_lowered]

/-- Where something can be read, no continuation line stands. -/
theorem Stream.startsAnew_of_readFrom {n : Nat} {s : Stream} (h : (readFrom n s).2 = none) :
    Stream.StartsAnew s := by
  obtain ⟨ls, rfl⟩ := readFrom_eq_none h
  cases ls with
  | nil =>
      intro l hl
      cases hl
  | cons chars ls =>
      intro l hl
      obtain rfl := Option.some.inj hl
      by_cases htab : chars.head? = some '\t'
      · obtain ⟨rest, rfl⟩ := List.head?_eq_some_iff.mp htab
        rw [List.map_cons, readFrom_eq] at h
        cases h
      · simpa [Line.startsWithTab] using htab

/-- The expressions of a script around a directive are those of the script with a text in place of
    the directive, around those of the text. -/
theorem readAll_pasted {before path text : Text} {e : Expression} {s : Stream}
    {es : List Expression} (hdirective : parse (includeLine path) = .ok [e])
    (hbefore : Text.Complete before) (htext : Text.Complete text) (hs : Stream.StartsAnew s)
    (h : readAll (Stream.ofText before ++ (Stream.ofText (includeLine path) ++ s)) = (es, none)) :
    ∃ n above below, es = above ++ e.lowered n :: below ∧
      ∀ inner, readAll (Stream.ofText text) = (inner, none) →
        ∃ inner' below',
          readAll (Stream.ofText before ++ (Stream.ofText text ++ s)) =
            (above ++ (inner' ++ below'), none) ∧
          inner.map Expression.content = inner'.map Expression.content ∧
          below.map Expression.content = below'.map Expression.content := by
  obtain ⟨above, rest, habove, hrest, rfl⟩ :=
    (hbefore.readFrom_append_eq_none_iff (startsAnew_includeLine path s)).mp h
  rw [readFrom_includeLine hdirective _ hs] at hrest
  obtain ⟨rfl, hbelow⟩ := Prod.mk.inj hrest
  refine ⟨_, above, _, rfl, fun inner hinner => ?_⟩
  obtain ⟨inner', hinner', hsame⟩ :=
    readFrom_content 0 (0 + (Stream.ofText before).length) hinner
  obtain ⟨below', hbelow', hsame'⟩ :=
    readFrom_content _ (0 + (Stream.ofText before).length + (Stream.ofText text).length)
      (Prod.ext rfl hbelow)
  have hjoined := (htext.readFrom_append_eq_none_iff hs).mpr ⟨inner', below', hinner', hbelow', rfl⟩
  have hanew : Stream.StartsAnew (Stream.ofText text ++ s) :=
    Stream.startsAnew_of_readFrom (congrArg Prod.snd hjoined)
  refine ⟨inner', below', ?_, hsame, hsame'⟩
  exact (hbefore.readFrom_append_eq_none_iff hanew).mpr ⟨above, _, habove, hjoined, rfl⟩

section Splice

variable {fs : FileSystem} {o : Options} {opened : List Text} {file main : Text} {e : Expanded}
  {reg : Registry} {stream : Stream}

/-- A splice that meets no error is the evaluation of its file, which was read to its end. -/
theorem evalExpression_of_splice (hname : e.name = includeWord)
    (htarget : includeTarget o e.body = .ok file) (haccess : fs.access file = .ok stream)
    (herror : (evalExpression fs o opened e reg).error = none) :
    (readAll stream).2 = none ∧ evalExpression fs o opened e reg =
      evalExpressions fs o (file :: opened) file none (readAll stream).1 reg := by
  rcases evalExpression_error_eq_none herror with ⟨hdefine, -⟩ |
    ⟨-, target, found, htarget', -, haccess', heval⟩ | ⟨-, hinclude, -⟩
  · exact absurd (hdefine.symm.trans hname) defineWord_ne_includeWord
  · obtain rfl := Except.ok.inj (htarget.symm.trans htarget')
    obtain rfl := Except.ok.inj (haccess.symm.trans haccess')
    rw [heval] at herror
    obtain ⟨hwell, -⟩ := registers_of_evalExpressions herror
    rw [heval, hwell]
    exact ⟨rfl, rfl⟩
  · exact absurd hname hinclude

/-- So it is repeated by expressions that say the same. -/
theorem evalExpression_pasted {raws : List Expression} (hname : e.name = includeWord)
    (htarget : includeTarget o e.body = .ok file) (haccess : fs.access file = .ok stream)
    (hraws : (readAll stream).1.map Expression.content = raws.map Expression.content) :
    (evalExpression fs o opened e reg).RepeatedBy
      (evalExpressions fs o opened main none raws reg) := by
  intro herror
  obtain ⟨-, heval⟩ := evalExpression_of_splice hname htarget haccess herror
  rw [heval] at herror ⊢
  exact evalExpressions_alike (List.subset_cons_self file opened) (.refl reg) hraws herror

end Splice

/-! ## Scripts -/

/-- A script is repeated by the script that has the text of a file in place of its directive. -/
theorem evaluate_pasted {fs fs' : FileSystem} {o : Options} {main before path file text : Text}
    {s : Stream} {e : Expression}
    (hmain : fs.access main =
      .ok (Stream.ofText before ++ (Stream.ofText (includeLine path) ++ s)))
    (hdirective : parse (includeLine path) = .ok [e])
    (htarget : includeTarget o e.body = .ok file)
    (hfile : fs.access file = .ok (Stream.ofText text))
    (hbefore : Text.Complete before) (htext : Text.Complete text) (hs : Stream.StartsAnew s)
    (hmain' : fs'.access main = .ok (Stream.ofText before ++ (Stream.ofText text ++ s)))
    (hothers : ∀ name, name ∉ [main] → fs.access name = fs'.access name) :
    (evaluate fs o main).RepeatedBy (evaluate fs' o main) := by
  intro herror
  have hname := (readExpression_includeLine hdirective).1
  rw [evaluate_of_access hmain] at herror ⊢
  rcases hall : readAll (Stream.ofText before ++ (Stream.ofText (includeLine path) ++ s)) with
    ⟨es, stopped⟩
  rw [hall] at herror
  obtain ⟨rfl, -⟩ := registers_of_evalExpressions herror
  obtain ⟨n, above, below, rfl, hpasted⟩ := readAll_pasted hdirective hbefore htext hs hall
  -- the file was read to its end, so it can be pasted
  have hinner : (readAll (Stream.ofText text)).2 = none := by
    rw [evalExpressions_append] at herror
    obtain ⟨-, hlater, -⟩ := Evaluation.error_andThen herror
    rw [evalExpressions] at hlater
    obtain ⟨hsplice, -⟩ := Evaluation.error_andThen hlater
    exact (evalExpression_of_splice hname htarget hfile hsplice).1
  obtain ⟨inner, below', hread, hsame, hsame'⟩ := hpasted _ (Prod.ext rfl hinner)
  rw [evaluate_of_access hmain', hread, ← evalExpressions_congr hothers]
  revert herror
  rw [evalExpressions_append, evalExpressions_append]
  -- above the directive both are the same, below it they say the same
  refine Evaluation.RepeatedBy.andThen (.refl _) fun _ => ?_
  rw [evalExpressions, evalExpressions_append]
  refine Evaluation.RepeatedBy.andThen (evalExpression_pasted hname htarget hfile hsame) ?_
  exact fun hreg => evalExpressions_alike (List.Subset.refl _) hreg hsame'

/-- Including a file is the same as pasting it. Let the script be some text, an `include` that
    names a stored text, and more text, where no comment and no continuation line reaches across
    a seam. If its run finishes, the run of the script with the stored text in place of the
    `include` finishes too, with the same comments, names and bodies. -/
theorem Expander.drain_pasted (files : List (Text × Bytes)) (o : Options)
    (main before path behind file text : Text) (e : Expression)
    (hmain : (FileSystem.ofContents files).access main =
      .ok (.ofBytes (encodeUtf8 (before ++ includeLine path ++ behind)) none))
    (hdirective : parse (includeLine path) = .ok [e])
    (htarget : includeTarget o e.body = .ok file)
    (hfile : (FileSystem.ofContents files).access file =
      .ok (.ofBytes (encodeUtf8 text) none))
    (hbefore : Text.Complete before) (htext : Text.Complete text)
    (hbehind : behind.head? ≠ some '\t')
    (hfinished : (start (.ofContents files) o main).drain.2.2.status = .finished) :
    let pasted := start (.ofContents (files ++ [(main, encodeUtf8 (before ++ text ++ behind))]))
      o main
    pasted.drain.2.2.status = .finished ∧
      pasted.drain.1.map (fun r => (r.comment, r.name, r.body)) =
        (start (.ofContents files) o main).drain.1.map fun r => (r.comment, r.name, r.body) := by
  intro pasted
  have hclosed : includeLine path = [] ∨ (includeLine path).getLast? = some '\n' :=
    .inr List.getLast?_concat
  rw [Stream.ofBytes_encodeUtf8, List.append_assoc, hbefore.ofText_append,
    Stream.ofText_append hclosed] at hmain
  rw [Stream.ofBytes_encodeUtf8] at hfile
  have hpasted : Stream.ofText (before ++ text ++ behind) =
      Stream.ofText before ++ (Stream.ofText text ++ Stream.ofText behind) := by
    rw [List.append_assoc, hbefore.ofText_append, htext.ofText_append]
  obtain ⟨hmain', hothers⟩ :=
    FileSystem.access_ofContents_concat files main (before ++ text ++ behind)
  rw [hpasted] at hmain'
  obtain ⟨herror, hresults, -⟩ := evaluate_pasted hmain hdirective htarget hfile hbefore htext
    (Stream.startsAnew_ofText hbehind) hmain' hothers
    ((finished_start_iff hmain).1.mp hfinished)
  refine ⟨(finished_start_iff hmain').1.mpr herror, ?_⟩
  rw [(drain_start_of_access hmain').1, (drain_start_of_access hmain).1]
  exact hresults.symm

/-- The definition of `a` may stand in the script that includes it and calls `a`. -/
theorem Expander.drain_pasted_definition :
    let o : Options := { extension := none }
    let before := "say 1\n".toList
    let behind := "a 2\n".toList
    let text := "define a x\n\tsay $x\n".toList
    let files := [(['m'], encodeUtf8 (before ++ includeLine ['b'] ++ behind)),
      (['b'], encodeUtf8 text)]
    let pasted := start (.ofContents (files ++ [(['m'], encodeUtf8 (before ++ text ++ behind))]))
      o ['m']
    pasted.drain.2.2.status = .finished ∧
      pasted.drain.1.map (fun r => (r.comment, r.name, r.body)) =
        [([], "say".toList, ['1']), ([], "say".toList, ['2'])] := by
  intro o before behind text
  have hscript : readAll (.ofBytes (encodeUtf8 (before ++ includeLine ['b'] ++ behind)) none) =
      ([⟨1, [], "say".toList, ['1']⟩, ⟨2, [], includeWord, ['b']⟩, ⟨3, [], ['a'], ['2']⟩],
        none) := by decide +kernel
  have htext : readAll (.ofBytes (encodeUtf8 text) none) =
      ([⟨1, [], defineWord, "a x\nsay $x".toList⟩], none) := by decide +kernel
  have hdirective : readAll (Stream.ofText (includeLine ['b'])) =
      ([⟨1, [], includeWord, ['b']⟩], none) := by decide +kernel
  have hbefore : Text.Complete before := .inr (by decide +kernel)
  have hcomplete : Text.Complete text := .inr (by decide +kernel)
  have hbehind : behind.head? ≠ some '\t' := by decide +kernel
  have htarget : includeTarget o ['b'] = .ok ['b'] := eq_ok_of_toOption (by decide +kernel)
  obtain ⟨t, ht⟩ : ∃ t : Template, t = ⟨['a'], [['x']], "say $x\n".toList,
    ⟨⟨1, [], defineWord, "a x\nsay $x".toList⟩, ['b'], []⟩⟩ := ⟨_, rfl⟩
  have hread : Template.ofDefinition
      (.ofExpression ⟨1, [], defineWord, "a x\nsay $x".toList⟩ (o.displayPath ['b'])) = .ok t :=
    ht ▸ eq_ok_of_toOption (by decide +kernel)
  have hnew : Registry.define {} t = .ok ⟨[t]⟩ := Registry.define_eq_ok_iff.mpr ⟨rfl, rfl⟩
  -- the call of `a` stands for its line with the argument put in
  have hcall : ∃ results,
      evalCommand ⟨[t]⟩ [] (.ofExpression ⟨3, [], ['a'], ['2']⟩ (o.displayPath ['m'])) =
        .ok results ∧ results.map (·.content) = [([], "say".toList, ['2'])] := by
    refine ⟨[⟨⟨1, [], "say".toList, ['2']⟩, ['b'], [⟨⟨3, [], ['a'], ['2']⟩, ['m'], []⟩]⟩], ?_, rfl⟩
    exact ht ▸ eq_ok_of_toOption (by decide +kernel)
  obtain ⟨results, hresults, hcontent⟩ := hcall
  clear_value before behind text
  intro files pasted
  have hm : (FileSystem.ofContents files).access ['m'] =
      .ok (.ofBytes (encodeUtf8 (before ++ includeLine ['b'] ++ behind)) none) := rfl
  have hb : (FileSystem.ofContents files).access ['b'] = .ok (.ofBytes (encodeUtf8 text) none) :=
    rfl
  have heval : evaluate (.ofContents files) o ['m'] =
      ⟨.ofExpression ⟨1, [], "say".toList, ['1']⟩ (o.displayPath ['m']) :: results, none,
        ⟨[t]⟩⟩ := by
    rw [evaluate_of_access hm, hscript]
    simp only
    rw [evalExpressions, evalExpression_command (by decide) (by decide), evalCommand_plain rfl,
      Evaluation.give_andThen, evalExpressions, evalExpression_opened rfl htarget rfl hb, htext]
    simp only
    rw [evalExpressions, evalExpression_define rfl hread hnew, Evaluation.give_andThen,
      evalExpressions, Evaluation.after_nil, Evaluation.give_andThen, evalExpressions,
      evalExpression_command (by decide) (by decide), hresults]
    simp only
    rw [Evaluation.give_andThen, evalExpressions]
    simp [Evaluation.after, Evaluation.give, Expanded.ofExpression]
  have hpasted := drain_pasted files o ['m'] before ['b'] behind ['b'] text _
    hm (parse_eq_ok_iff.mpr hdirective) htarget hb hbefore hcomplete hbehind
    ((finished_start_iff hm).1.mpr (by rw [heval]))
  rw [(drain_start_of_access hm).1, heval, List.map_cons] at hpasted
  refine ⟨hpasted.1, hpasted.2.trans ?_⟩
  exact congrArg (_ :: ·) hcontent

end LineScript
