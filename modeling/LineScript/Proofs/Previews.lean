import LineScript.Document.Preview
import LineScript.Proofs.Agreement
import LineScript.Proofs.Joining
import LineScript.Proofs.Rereading

/-!
# Previews tell the truth

A preview prints the definitions that a document sees, in the order of their names, puts a call
behind them, and expands the lot as a script of its own. A run of the document with the call at
its end keeps the templates as they were read, in the order they were read, from several files.
Both give the same.

The definitions are those of the run (`Document.found_entries`), each of them is read again as it
was (`Rereading`), no name is defined twice, so their order does not matter
(`find?_eq_of_perm`), and a call asks for nothing but what its templates say (`Likeness`). So the
preview of a call is what the call stands for in the run (`Document.concur_preview`).
-/

namespace LineScript

/-! ## Definitions in another order -/

/-- What is found under a key does not depend on the order, if no key occurs twice. -/
theorem find?_eq_of_perm {α : Type} {key : α → Text} {as bs : List α} (h : as.Perm bs)
    (hdistinct : (as.map key).Nodup) (k : Text) :
    as.find? (fun a => key a = k) = bs.find? (fun a => key a = k) := by
  induction h with
  | nil => rfl
  | cons a h ih =>
      have hrest := ih (List.nodup_cons.mp hdistinct).2
      by_cases ha : key a = k
      · rw [List.find?_cons_of_pos (by simpa using ha), List.find?_cons_of_pos (by simpa using ha)]
      · rw [List.find?_cons_of_neg (by simpa using ha), List.find?_cons_of_neg (by simpa using ha),
          hrest]
  | swap a b as =>
      -- only one of the two can have the key
      have hne : key b ≠ key a := by
        intro heq
        exact (List.nodup_cons.mp hdistinct).1 (heq ▸ List.mem_cons_self)
      by_cases ha : key a = k
      · have hb : ¬key b = k := fun hb => hne (hb.trans ha.symm)
        simp [ha, hb]
      · simp [List.find?_cons, ha]
  | trans h h' ih ih' => exact (ih hdistinct).trans (ih' ((h.map key).nodup_iff.mp hdistinct))

/-- What a definition says, wherever it is written. -/
def Definition.outline (d : Definition) : Text × List Text × Text := (d.name, d.params, d.body)

/-- Registering printed definitions gives templates that say what the definitions say. -/
theorem evalExpressions_definitions {fs : FileSystem} {o : Options} {opened : List Text}
    {file : Text} {ds : List Definition} {raws : List Expression} {reg : Registry}
    (hraws : raws.map Expression.content =
      ds.map fun d => ([], defineWord, Expression.reprintedBody d.toExpression.body))
    (hread : ∀ d ∈ ds, Readable d.name d.params d.body ∧ ∀ c ∈ d.name, isControl c = false)
    (hdistinct : (reg.templates.map (·.name) ++ ds.map (·.name)).Nodup) :
    ∃ last, evalExpressions fs o opened file none raws reg = .give last [] ∧
      last.templates.map Template.outline =
        reg.templates.map Template.outline ++ ds.map Definition.outline := by
  induction ds generalizing raws reg with
  | nil =>
      rw [List.map_eq_nil_iff.mp hraws]
      exact ⟨reg, evalExpressions_nil opened file reg, (List.append_nil _).symm⟩
  | cons d ds ih =>
      cases raws with
      | nil => cases hraws
      | cons raw raws =>
          obtain ⟨hraw, hrest⟩ := List.cons.inj hraws
          have hname : raw.name = defineWord := congrArg (·.2.1) hraw
          have hbody : raw.body = Expression.reprintedBody d.toExpression.body :=
            congrArg (·.2.2) hraw
          obtain ⟨hreadable, hcontrol⟩ := hread d List.mem_cons_self
          let decl : Expanded := .ofExpression raw (o.displayPath file)
          let t : Template := ⟨d.name, d.params, d.body, decl⟩
          have ht : Template.ofDefinition decl = .ok t :=
            Definition.ofDefinition_toExpression hreadable hcontrol hbody
          -- the names that are still to come are not registered yet
          have hfree : reg.get? d.name = none := by
            refine List.find?_eq_none.mpr fun u hu hsame => ?_
            have hmem : d.name ∈ reg.templates.map (·.name) :=
              List.mem_map.mpr ⟨u, hu, by simpa using hsame⟩
            exact (List.nodup_append.mp hdistinct).2.2 _ hmem _ List.mem_cons_self rfl
          have hnew : reg.define t = .ok ⟨reg.templates ++ [t]⟩ :=
            Registry.define_eq_ok_iff.mpr ⟨hfree, rfl⟩
          have hlater : ((⟨reg.templates ++ [t]⟩ : Registry).templates.map (·.name) ++
              ds.map (·.name)).Nodup := by simpa using hdistinct
          obtain ⟨last, hlast, houtlines⟩ :=
            ih hrest (fun d hd => hread d (List.mem_cons_of_mem _ hd)) hlater
          refine ⟨last, ?_, ?_⟩
          · rw [evalExpressions, evalExpression_define hname ht hnew, Evaluation.give_andThen,
              Evaluation.after_nil, hlast]
          · rw [houtlines, List.map_append, List.append_assoc]
            rfl

/-- Lists of templates that say the same are alike. -/
theorem Registry.alike_of_outlines {reg reg' : Registry}
    (h : (reg.templates.map Template.outline).Perm (reg'.templates.map Template.outline))
    (hdistinct : (reg.templates.map (·.name)).Nodup) : reg.Alike reg' := by
  intro name
  have hkeys : ((reg.templates.map Template.outline).map Prod.fst).Nodup := by
    rw [List.map_map]
    exact hdistinct
  have hfind := find?_eq_of_perm h hkeys name
  rw [List.find?_map, List.find?_map] at hfind
  exact hfind

/-! ## What a document sees -/

/-- A document has found what its run registers, in the same order. -/
theorem Document.found_entries {files : List (Text × Bytes)} {o : Options} {name text : Text}
    (hroot : o.root = [])
    (hentry : (FileSystem.ofContents files).access name = .ok (Stream.ofText text))
    (herror : (evaluate (.ofContents files) o name).error = none)
    (hfirst : ∀ e, Reaches (.ofContents files) o name (readAll (Stream.ofText text)).1 e →
      e.name = includeWord → ∃ c ∈ (Text.cutLine e.body).1, isBlank c = false) :
    (Document.ofText (.ofContents files) o name text).found.map Definition.entry =
        (evaluate (.ofContents files) o name).templates.templates.map Template.entry ∧
      (evaluate (.ofContents files) o name).templates.Sound := by
  rw [evaluate_of_access hentry] at herror ⊢
  obtain ⟨-, hregisters⟩ := registers_of_evalExpressions herror
  have hstart : Follows (.ofContents files) o [name] { seen := [name] } {} :=
    ⟨rfl, fun f hf => .inl hf⟩
  have hroom : closedNames (.ofContents files) [name] ≤
      (FileSystem.ofContents files).names.length := List.countP_le_length
  obtain ⟨hfollows, -⟩ :=
    hregisters.follows (FileSystem.textual_ofContents files) hroot hfirst hroom hstart
  refine ⟨?_, hregisters.sound ⟨List.nodup_nil, fun t ht => absurd ht List.not_mem_nil⟩⟩
  show (survey (.ofContents files) o name text).definitions.map Definition.entry = _
  rw [survey, visitFile_of_unseen _ _ _ _ _ rfl]
  exact hfollows.found

/-! ## The script of a preview -/

/-- What a command outside every call gives. -/
def commandEvaluation (e : Expanded) (reg : Registry) : Evaluation :=
  match evalCommand reg [] e with
  | .ok results => .give reg results
  | .error error => .stop reg error

/-- A command at the end of a file ends its evaluation. -/
theorem evalExpressions_command {fs : FileSystem} {o : Options} {opened : List Text} {file : Text}
    {raw : Expression} {reg : Registry} (hdefine : raw.name ≠ defineWord)
    (hinclude : raw.name ≠ includeWord) :
    evalExpressions fs o opened file none [raw] reg =
      commandEvaluation (.ofExpression raw (o.displayPath file)) reg := by
  have hend : evalExpressions fs o opened file none [] = (.give · []) :=
    funext (evalExpressions_nil opened file)
  rw [evalExpressions, evalExpression_command hdefine hinclude, hend]
  exact Evaluation.andThen_give _

/-- Results that say the same print the same. -/
theorem SameContent.flatMap_toSource {rs rs' : List Expanded} (h : SameContent rs rs') :
    rs.flatMap (·.toSource) = rs'.flatMap (·.toSource) := by
  let print : Text × Text × Text → Text := fun content =>
    Expression.toSource { name := content.2.1, body := content.2.2 }
  have hprint : ∀ rs : List Expanded,
      rs.flatMap (·.toSource) = (rs.map (·.content)).flatMap print := by
    intro rs
    rw [List.flatMap_map]
    rfl
  rw [hprint, hprint, h]

namespace Document

variable {doc : Document} {reg : Registry} {call args : Text}

theorem perm_definitions (doc : Document) : doc.definitions.Perm doc.found :=
  List.mergeSort_perm doc.found _

/-- Every definition that a document shows can be printed and read again. -/
theorem readable_of_mem_definitions (hreg : reg.Sound)
    (h : doc.found.map Definition.entry = reg.templates.map Template.entry) :
    ∀ d ∈ doc.definitions,
      Readable d.name d.params d.body ∧ ∀ c ∈ d.name, isControl c = false := by
  intro d hd
  have hmem : d.entry ∈ reg.templates.map Template.entry :=
    h ▸ List.mem_map_of_mem ((perm_definitions doc).mem_iff.mp hd)
  obtain ⟨t, ht, hsame⟩ := List.mem_map.mp hmem
  obtain ⟨decl, hread⟩ := hreg.read t ht
  have hname : t.name = d.name := congrArg (·.1) hsame
  have hparams : t.params = d.params := congrArg (·.2.1) hsame
  have hbody : t.body = d.body := congrArg (·.2.2.1) hsame
  rw [← hname, ← hparams, ← hbody]
  exact readable_of_ofDefinition hread

/-- What a document shows, in whatever order, is what its run registers. -/
theorem perm_outlines (h : doc.found.map Definition.entry = reg.templates.map Template.entry) :
    (reg.templates.map Template.outline).Perm (doc.definitions.map Definition.outline) := by
  have houtlines := congrArg (List.map fun entry => (entry.1, entry.2.1, entry.2.2.1)) h
  rw [List.map_map, List.map_map] at houtlines
  have hsame : doc.found.map Definition.outline = reg.templates.map Template.outline := houtlines
  rw [← hsame]
  exact ((perm_definitions doc).map _).symm

/-- The script of a preview is read as the printed definitions and the call. -/
theorem readAll_previewScript (doc : Document) (args : Text) (hname : CommandName call) :
    ∃ defs raw, readAll (Stream.ofText (doc.previewScript call args)) = (defs ++ [raw], none) ∧
      defs.map Expression.content = doc.definitions.map
        (fun d => ([], defineWord, Expression.reprintedBody d.toExpression.body)) ∧
      raw.content = ([], call, Expression.reprintedBody args) := by
  let es : List Expression :=
    doc.definitions.map Definition.toExpression ++ [{ name := call, body := args }]
  have hscript : doc.previewScript call args = es.flatMap Expression.toSource := by
    rw [previewScript, List.flatMap_append, List.flatMap_map, List.flatMap_singleton]
    rfl
  have hnames : ∀ e ∈ es, CommandName e.name := by
    intro e he
    rcases List.mem_append.mp he with he | he
    · obtain ⟨d, -, rfl⟩ := List.mem_map.mp he
      exact commandName_defineWord
    · rw [List.mem_singleton.mp he]
      exact hname
  obtain ⟨raws, hraws, hcontent⟩ := readFrom_commands hnames 0
  rw [List.map_append, List.map_singleton, List.map_map] at hcontent
  obtain ⟨defs, rest, rfl, hdefs, hrest⟩ := List.map_eq_append_iff.mp hcontent
  obtain ⟨raw, rfl, hraw⟩ := List.map_eq_singleton_iff.mp hrest
  exact ⟨defs, raw, hscript ▸ hraws, hdefs, hraw⟩

/-- The script of a preview, in whatever file, comes down to the call among templates that say
    what the run's templates say. -/
theorem evaluate_previewScript {fs : FileSystem} {o : Options} {file : Text} (hreg : reg.Sound)
    (h : doc.found.map Definition.entry = reg.templates.map Template.entry)
    (hname : CommandName call) (hdefine : call ≠ defineWord) (hinclude : call ≠ includeWord)
    (haccess : fs.access file = .ok (Stream.ofText (doc.previewScript call args))) :
    ∃ last site, reg.Alike last ∧ site.content = ([], call, Expression.reprintedBody args) ∧
      evaluate fs o file = commandEvaluation site last := by
  obtain ⟨defs, raw, hread, hdefs, hraw⟩ := readAll_previewScript doc args hname
  have houtlines := perm_outlines h
  have hnames : (reg.templates.map (·.name)).Perm (doc.definitions.map (·.name)) := by
    have hfirst := houtlines.map Prod.fst
    rw [List.map_map, List.map_map] at hfirst
    exact hfirst
  have hdistinct : ((({} : Registry).templates.map (·.name)) ++
      doc.definitions.map (·.name)).Nodup := hnames.nodup_iff.mp hreg.distinct
  obtain ⟨last, hlast, hlisted⟩ :
      ∃ last, evalExpressions fs o [file] file none defs {} = .give last [] ∧ _ :=
    evalExpressions_definitions hdefs (readable_of_mem_definitions hreg h) hdistinct
  have hcall : raw.name = call := congrArg (·.2.1) hraw
  refine ⟨last, .ofExpression raw (o.displayPath file),
    Registry.alike_of_outlines (hlisted ▸ houtlines) hreg.distinct, hraw, ?_⟩
  -- the definitions give nothing, so all results are those of the call
  rw [evaluate_of_access haccess, hread, evalExpressions_append, hlast, Evaluation.give_andThen,
    Evaluation.after_nil, evalExpressions_command (hcall ▸ hdefine) (hcall ▸ hinclude)]

/-- A preview prints what the call stands for among the templates of the run, or fails as the call
    does there. -/
theorem concur_preview (hreg : reg.Sound)
    (h : doc.found.map Definition.entry = reg.templates.map Template.entry)
    (hname : CommandName call) (hdefine : call ≠ defineWord) (hinclude : call ≠ includeWord)
    {e : Expanded} (he : e.content = ([], call, Expression.reprintedBody args)) :
    Concur (fun results shown => results.flatMap (·.toSource) = shown) SameKind
      (evalCommand reg [] e) (doc.preview call args) := by
  let fs : FileSystem :=
    { files := [("preview".toList, .ok (Stream.ofText (doc.previewScript call args)))] }
  have haccess : fs.access "preview".toList =
      .ok (Stream.ofText (doc.previewScript call args)) := rfl
  obtain ⟨last, site, hlast, hsite, heval⟩ :=
    evaluate_previewScript (o := { extension := none }) hreg h hname hdefine hinclude haccess
  have hexpand := expandScript_eq_evaluate fs { extension := none } "preview".toList
  rw [heval, commandEvaluation] at hexpand
  have hsame : Concur SameContent SameKind (evalCommand reg [] e) (evalCommand last [] site) :=
    evalCommand_alike hlast rfl (he.trans hsite.symm)
  simp only [preview]
  rw [hexpand]
  cases hgoes : evalCommand last [] site with
  | error error =>
      obtain ⟨error', hfails, hkind⟩ := (hgoes ▸ hsame).of_error
      rw [hfails]
      exact hkind
  | ok printed =>
      obtain ⟨results, hgives, hcontent⟩ := (hgoes ▸ hsame).of_ok
      rw [hgives]
      exact hcontent.flatMap_toSource

end Document

/-! ## A call at the end of a script -/

/-- A script with a call printed behind it is the script, and then the call. -/
theorem evaluate_call {fs fs' : FileSystem} {o : Options} {name text call args : Text}
    (hentry : fs.access name = .ok (Stream.ofText text))
    (herror : (evaluate fs o name).error = none) (htext : Text.Complete text)
    (hname : CommandName call) (hdefine : call ≠ defineWord) (hinclude : call ≠ includeWord)
    (hentry' : fs'.access name =
      .ok (Stream.ofText (text ++ Expression.toSource { name := call, body := args })))
    (hothers : ∀ other, other ∉ [name] → fs.access other = fs'.access other) :
    ∃ e : Expanded, e.content = ([], call, Expression.reprintedBody args) ∧
      evaluate fs' o name = (evaluate fs o name).andThen (commandEvaluation e) := by
  rw [evaluate_of_access hentry] at herror
  rcases hall : readAll (Stream.ofText text) with ⟨es, stopped⟩
  rw [hall] at herror
  obtain ⟨rfl, -⟩ := registers_of_evalExpressions herror
  have hnames : ∀ e ∈ [({ name := call, body := args } : Expression)], CommandName e.name := by
    intro e he
    rw [List.mem_singleton.mp he]
    exact hname
  obtain ⟨raws, hraws, hcontent⟩ := readFrom_commands hnames (0 + (Stream.ofText text).length)
  rw [List.flatMap_singleton] at hraws
  obtain ⟨raw, rfl, hraw⟩ := List.map_eq_singleton_iff.mp hcontent
  have hcall : raw.name = call := congrArg (·.2.1) hraw
  have hread :
      readAll (Stream.ofText (text ++ Expression.toSource { name := call, body := args })) =
        (es ++ [raw], none) := by
    rw [htext.ofText_append]
    exact (htext.readFrom_append_eq_none_iff (Stream.startsAnew_ofText
      (Expression.head?_toSource hname.toReadName))).mpr ⟨es, [raw], hall, hraws, rfl⟩
  refine ⟨.ofExpression raw (o.displayPath name), hraw, ?_⟩
  rw [evaluate_of_access hentry', hread, ← evalExpressions_congr hothers, evalExpressions_append,
    evaluate_of_access hentry, hall]
  congr 1
  funext reg
  exact evalExpressions_command (hcall ▸ hdefine) (hcall ▸ hinclude)

/-- A preview tells the truth. Let the run of a stored script finish, and let no `include` that it
    comes to have a blank first line. If the preview of a call in its document is a text, the run
    of the script with the call behind it finishes, and gives the results of the script and then
    results that print as this text. If the preview fails, that run gives the results of the script
    and then fails with an error of the same kind. -/
theorem Document.preview_truthful (files : List (Text × Bytes)) (o : Options)
    (name text call args : Text) (hroot : o.root = [])
    (hentry : (FileSystem.ofContents files).access name = .ok (.ofBytes (encodeUtf8 text) none))
    (htext : Text.Complete text)
    (hfinished : (Expander.start (.ofContents files) o name).drain.2.2.status = .finished)
    (hfirst : ∀ e, (Expander.start (.ofContents files) o name).Tokenises e →
      e.name = includeWord → ∃ c ∈ (Text.cutLine e.body).1, isBlank c = false)
    (hname : CommandName call) (hdefine : call ≠ defineWord) (hinclude : call ≠ includeWord) :
    let doc := Document.ofText (.ofContents files) o name text
    let script := text ++ Expression.toSource { name := call, body := args }
    let run := (Expander.start (.ofContents (files ++ [(name, encodeUtf8 script)])) o name).drain
    let above := (Expander.start (.ofContents files) o name).drain.1
    (∀ shown, doc.preview call args = .ok shown →
      run.2.2.status = .finished ∧
        ∃ results, run.1 = above ++ results ∧ results.flatMap (·.toSource) = shown) ∧
    ∀ error, doc.preview call args = .error error →
      ∃ error', run.1 = above ∧ run.2.1 = some error' ∧ run.2.2.status = .poisoned error' ∧
        error'.cause.kind = error.cause.kind := by
  intro doc script run above
  rw [Stream.ofBytes_encodeUtf8] at hentry
  have herror := (Expander.finished_start_iff hentry).1.mp hfinished
  obtain ⟨hfound, hsound⟩ := found_entries hroot hentry herror fun e he =>
    hfirst e ((Expander.tokenises_start_iff hentry herror).mpr he)
  obtain ⟨hentry', hothers⟩ := FileSystem.access_ofContents_concat files name script
  obtain ⟨e, he, heval⟩ :=
    evaluate_call hentry herror htext hname hdefine hinclude hentry' hothers
  simp only [Evaluation.andThen, herror, commandEvaluation] at heval
  -- the call behind the script and the call behind the printed definitions go the same way
  have hsame := concur_preview hsound hfound hname hdefine hinclude he
  obtain ⟨hresults, hfails, -⟩ := Expander.drain_start_of_access (o := o) hentry'
  have habove : above = (evaluate (.ofContents files) o name).results :=
    (Expander.drain_start_of_access hentry).1
  constructor
  · intro shown hshown
    obtain ⟨results, hgives, hprints⟩ := (hshown ▸ hsame).of_ok
    rw [hgives] at heval
    rw [heval] at hresults
    have hfinished' := (Expander.finished_start_iff (o := o) hentry').1.mpr (by rw [heval]; rfl)
    refine ⟨hfinished', results, ?_, hprints⟩
    rw [habove]
    exact hresults
  · intro error hshown
    obtain ⟨error', hstops, hkind⟩ := (hshown ▸ hsame).of_error
    rw [hstops] at heval
    rw [heval] at hresults hfails
    refine ⟨error', ?_, hfails, Expander.poisoned_of_error_eq_some hfails, hkind⟩
    rw [habove]
    exact hresults.trans (List.append_nil _)

/-- The call `a 2` behind a script that splices the definition of `a`. -/
theorem Document.preview_truthful_spliced :
    let o : Options := { extension := none }
    let text := "say 1\ninclude b\n".toList
    let library := "define a x\n\tsay $x\n".toList
    let files := [(['m'], encodeUtf8 text), (['b'], encodeUtf8 library)]
    let script := text ++ Expression.toSource { name := ['a'], body := ['2'] }
    let run := (Expander.start (.ofContents (files ++ [(['m'], encodeUtf8 script)])) o ['m']).drain
    (Document.ofText (.ofContents files) o ['m'] text).preview ['a'] ['2'] =
        .ok "say 2\n".toList ∧
      run.2.2.status = .finished ∧ run.1.flatMap (·.toSource) = "say 1\nsay 2\n".toList := by
  intro o text library
  have hscript : readAll (Stream.ofText text) =
      ([⟨1, [], "say".toList, ['1']⟩, ⟨2, [], includeWord, ['b']⟩], none) := by decide +kernel
  have hlibrary : readAll (.ofBytes (encodeUtf8 library) none) =
      ([⟨1, [], defineWord, "a x\nsay $x".toList⟩], none) := by decide +kernel
  have htext : Text.Complete text := .inr (by decide +kernel)
  have htarget : includeTarget o ['b'] = .ok ['b'] := eq_ok_of_toOption (by decide +kernel)
  obtain ⟨t, ht⟩ : ∃ t : Template, t = ⟨['a'], [['x']], "say $x\n".toList,
    ⟨⟨1, [], defineWord, "a x\nsay $x".toList⟩, ['b'], []⟩⟩ := ⟨_, rfl⟩
  have hread : Template.ofDefinition
      (.ofExpression ⟨1, [], defineWord, "a x\nsay $x".toList⟩ (o.displayPath ['b'])) = .ok t :=
    ht ▸ eq_ok_of_toOption (by decide +kernel)
  have hnew : Registry.define {} t = .ok ⟨[t]⟩ := Registry.define_eq_ok_iff.mpr ⟨rfl, rfl⟩
  obtain ⟨site, hsite⟩ : ∃ site : Expanded, site = ⟨⟨3, [], ['a'], ['2']⟩, ['m'], []⟩ := ⟨_, rfl⟩
  have hbody : site.content = ([], ['a'], Expression.reprintedBody ['2']) := by
    rw [hsite]
    decide +kernel
  have hcall : ∃ results, evalCommand ⟨[t]⟩ [] site = .ok results ∧
      results.flatMap (·.toSource) = "say 2\n".toList := by
    refine ⟨[⟨⟨1, [], "say".toList, ['2']⟩, ['b'], [⟨⟨3, [], ['a'], ['2']⟩, ['m'], []⟩]⟩], ?_,
      by decide +kernel⟩
    rw [ht, hsite]
    exact eq_ok_of_toOption (by decide +kernel)
  obtain ⟨results, hresults, hprinted⟩ := hcall
  have hname : CommandName ['a'] :=
    ⟨Expression.readName_of_splitName (by decide +kernel), by decide, by decide⟩
  have hsay : (Expanded.ofExpression ⟨1, [], "say".toList, ['1']⟩
      (o.displayPath ['m'])).toSource = "say 1\n".toList := by decide +kernel
  clear_value text library
  intro files script run
  have hm : (FileSystem.ofContents files).access ['m'] =
      .ok (.ofBytes (encodeUtf8 text) none) := rfl
  have hb : (FileSystem.ofContents files).access ['b'] =
      .ok (.ofBytes (encodeUtf8 library) none) := rfl
  have hm' := hm
  rw [Stream.ofBytes_encodeUtf8] at hm'
  have heval : evaluate (.ofContents files) o ['m'] =
      .give ⟨[t]⟩ [.ofExpression ⟨1, [], "say".toList, ['1']⟩ (o.displayPath ['m'])] := by
    rw [evaluate_of_access hm', hscript]
    simp only
    rw [evalExpressions, evalExpression_command (by decide) (by decide), evalCommand_plain rfl,
      Evaluation.give_andThen, evalExpressions, evalExpression_opened rfl htarget rfl hb, hlibrary]
    simp only
    rw [evalExpressions, evalExpression_define rfl hread hnew, Evaluation.give_andThen,
      evalExpressions, Evaluation.after_nil, Evaluation.give_andThen, evalExpressions]
    rfl
  have herror : (evaluate (.ofContents files) o ['m']).error = none := by
    rw [heval]
    rfl
  have hblank : ∀ e, Reaches (.ofContents files) o ['m'] (readAll (Stream.ofText text)).1 e →
      e.name = includeWord → ∃ c ∈ (Text.cutLine e.body).1, isBlank c = false := by
    intro e hcomes hinclude
    rw [hscript] at hcomes
    rcases reaches_cons.mp hcomes with rfl | ⟨_, _, hword, -⟩ | hlater
    · exact absurd hinclude (by decide)
    · exact absurd hword (by decide)
    rcases reaches_cons.mp hlater with rfl | ⟨target, stream, -, htarget', haccess, hled⟩ | hlater
    · exact ⟨'b', by decide, by decide⟩
    · obtain rfl := Except.ok.inj (htarget.symm.trans htarget')
      obtain rfl := Except.ok.inj (hb.symm.trans haccess)
      rw [hlibrary] at hled
      rcases reaches_cons.mp hled with rfl | ⟨_, _, hdefine, -⟩ | hlater
      · exact absurd hinclude defineWord_ne_includeWord
      · exact absurd hdefine defineWord_ne_includeWord
      · exact absurd hlater not_reaches_nil
    · exact absurd hlater not_reaches_nil
  -- the preview, by what the call stands for in the run
  have hshown : (Document.ofText (.ofContents files) o ['m'] text).preview ['a'] ['2'] =
      .ok "say 2\n".toList := by
    obtain ⟨hfound, hsound⟩ := found_entries rfl hm' herror hblank
    rw [heval] at hfound hsound
    have hsame := concur_preview hsound hfound hname (by decide) (by decide) hbody
    rw [show evalCommand (Evaluation.give ⟨[t]⟩ _).templates [] site = .ok results from hresults]
      at hsame
    cases hpreview : (Document.ofText (.ofContents files) o ['m'] text).preview ['a'] ['2'] with
    | error error =>
        rw [hpreview] at hsame
        exact hsame.elim
    | ok shown =>
        rw [hpreview] at hsame
        rw [← hprinted, show results.flatMap (·.toSource) = shown from hsame]
  have hfinished := (Expander.finished_start_iff (o := o) hm).1.mpr herror
  have htruth := Document.preview_truthful files o ['m'] text ['a'] ['2'] rfl hm htext hfinished
    (fun e hcomes => hblank e ((Expander.tokenises_start_iff hm' herror).mp hcomes))
    hname (by decide) (by decide)
  obtain ⟨hends, more, hmore, hprints⟩ := htruth.1 _ hshown
  refine ⟨hshown, hends, ?_⟩
  rw [hmore, (Expander.drain_start_of_access hm').1, heval, List.flatMap_append, hprints]
  show (List.flatMap _ [_]) ++ _ = _
  rw [List.flatMap_singleton, hsay]
  rfl

end LineScript
