import LineScript.Proofs.Fields
import LineScript.Proofs.Irreducible
import LineScript.Proofs.Occurrences
import LineScript.Proofs.Printing
import LineScript.Proofs.Producing
import LineScript.Proofs.Targets

/-!
# Uses before a definition

A document reports a command whose template is defined further down. The report rests on a survey
of the whole document, and the expansion on the templates that are registered when the command is
read. The two agree because a run that meets no error registers every name once: what the survey
has found under a name is what the run registers under it, and if that definition stands in the
document, the run has come past it if and only if it stands above the command.

* `Registers.known`: what a survey finds is registered.
* `Registers.origin`: what is registered as a definition of the document stands in the document.
* `Document.reportsEarlyUse_iff`: what a report says.
* `Document.earlyUse_produces`: what a run produces for a command that is reported, and for one
  that is not.
-/

namespace LineScript

/-! ## What a survey finds -/

namespace Survey

variable {s s' : Survey} {d : Definition} {n : Text}

theorem keep_isPrefix (s : Survey) (d : Definition) : s.definitions <+: (s.keep d).definitions := by
  rw [keep]
  split
  · exact List.prefix_refl _
  · exact List.prefix_append _ _

/-- What is kept has a definition. -/
theorem exists_definition?_keep (s : Survey) (d : Definition) :
    ∃ d', (s.keep d).definition? d.name = some d' := by
  rw [definition?_keep, if_pos rfl]
  cases s.definition? d.name with
  | none => exact ⟨d, rfl⟩
  | some d' => exact ⟨d', rfl⟩

/-- A definition stays the first of its name. -/
theorem definition?_of_prefix (h : s.definitions <+: s'.definitions)
    (hd : s.definition? n = some d) : s'.definition? n = some d := by
  obtain ⟨more, hmore⟩ := h
  rw [definition?] at hd ⊢
  rw [← hmore, List.find?_append, hd]
  rfl

/-- All that a survey has found is registered. -/
def Known (s : Survey) (reg : Registry) : Prop :=
  ∀ d ∈ s.definitions, ∃ t ∈ reg.templates, t.entry = d.entry

theorem Known.keep {reg : Registry} {t : Template} (h : s.Known reg) (ht : t ∈ reg.templates)
    (hsame : t.entry = d.entry) : (s.keep d).Known reg := by
  rw [Survey.keep]
  split
  · exact h
  · intro d' hd'
    rcases List.mem_append.mp hd' with hd' | hd'
    · exact h d' hd'
    · rw [List.mem_singleton.mp hd']
      exact ⟨t, ht, hsame⟩

end Survey

section Surveys

variable {fs : FileSystem} {o : Options} {file : Text} {s : Survey}

/-- A survey never drops a definition, whatever it visits. -/
theorem foldl_surveyExpression_isPrefix {visit : Text → Text → Survey → Survey}
    (hvisit : ∀ target text s, s.definitions <+: (visit target text s).definitions)
    (es : List Expression) (s : Survey) :
    s.definitions <+: (es.foldl (surveyExpression fs o visit file) s).definitions := by
  induction es generalizing s with
  | nil => exact List.prefix_refl _
  | cons e es ih =>
      refine List.IsPrefix.trans ?_ (ih _)
      rw [surveyExpression]
      split
      · split
        · exact s.keep_isPrefix _
        · exact List.prefix_refl _
      · split
        · split
          · exact List.prefix_refl _
          · split
            · exact hvisit _ _ s
            · exact List.prefix_refl _
        · exact List.prefix_refl _

theorem visitFile_isPrefix (room : Nat) (file text : Text) (s : Survey) :
    s.definitions <+: (visitFile fs o room file text s).definitions := by
  induction room generalizing file text s with
  | zero => exact List.prefix_refl _
  | succ room ih =>
      rw [visitFile]
      split
      · exact List.prefix_refl _
      · exact foldl_surveyExpression_isPrefix ih _ { s with seen := file :: s.seen }

/-- A survey finds a definition of every name that the expressions define. -/
theorem exists_definition?_surveyAll {room : Nat} {es : List Expression} {decl : Expression}
    {d : Definition} (hdecl : decl ∈ es) (hname : decl.name = defineWord)
    (hd : Definition.ofExpression? file decl = some d) :
    ∃ d', (surveyAll fs o room file es s).definition? d.name = some d' := by
  obtain ⟨before, behind, rfl⟩ := List.append_of_mem hdecl
  rw [surveyAll, List.foldl_append, List.foldl_cons, surveyExpression, if_pos hname, hd]
  obtain ⟨d', hd'⟩ := Survey.exists_definition?_keep
    (before.foldl (surveyExpression fs o (visitFile fs o room) file) s) d
  exact ⟨d', Survey.definition?_of_prefix
    (foldl_surveyExpression_isPrefix (visitFile_isPrefix room) behind _) hd'⟩

end Surveys

/-! ## What is registered -/

/-- A template stands where its definition does. -/
theorem Template.place_of_ofDefinition {raw : Expression} {file : Text} {t : Template}
    (h : ofDefinition (.ofExpression raw file) = .ok t) : t.file = file ∧ t.line = raw.line := by
  rw [Template.file, Template.line, source_of_ofDefinition h]
  exact ⟨rfl, rfl⟩

namespace Registers

variable {fs : FileSystem} {o : Options} {opened : List Text} {file : Text}
  {raws : List Expression} {reg last : Registry}

/-- What is registered stays registered. -/
theorem subset (h : Registers fs o opened file raws reg last) :
    reg.templates ⊆ last.templates := by
  induction h with
  | done => exact List.Subset.refl _
  | define hname hread hnew hrest ih =>
      obtain ⟨-, rfl⟩ := Registry.define_eq_ok_iff.mp hnew
      exact fun t ht => ih (List.mem_append_left _ ht)
  | splice hname htarget hclosed haccess hwell hinner hrest ihinner ihrest =>
      exact List.Subset.trans ihinner ihrest
  | command hdefine hinclude hrest ih => exact ih

/-- Every definition among the expressions is registered. -/
theorem exists_mem (h : Registers fs o opened file raws reg last) {decl : Expression}
    (hdecl : decl ∈ raws) (hname : decl.name = defineWord) :
    ∃ t ∈ last.templates,
      Template.ofDefinition (.ofExpression decl (o.displayPath file)) = .ok t := by
  induction h with
  | done => cases hdecl
  | @define opened file raw raws t reg mid last hdefine hread hnew hrest ih =>
      rcases List.mem_cons.mp hdecl with rfl | hdecl
      · obtain ⟨-, rfl⟩ := Registry.define_eq_ok_iff.mp hnew
        exact ⟨t, hrest.subset (List.mem_append_right _ List.mem_cons_self), hread⟩
      · exact ih hdecl
  | splice hinclude htarget hclosed haccess hwell hinner hrest ihinner ihrest =>
      rcases List.mem_cons.mp hdecl with rfl | hdecl
      · exact absurd (hname.symm.trans hinclude) defineWord_ne_includeWord
      · exact ihrest hdecl
  | command hdefine hinclude hrest ih =>
      rcases List.mem_cons.mp hdecl with rfl | hdecl
      · exact absurd hname hdefine
      · exact ih hdecl

/-- What a survey of the expressions finds is registered in the end, if files are shown by their
    names. It may find less, since a path below a blank line is spliced but not surveyed. -/
theorem known {final : Registry} {s : Survey} {room : Nat} (htextual : fs.Textual)
    (hroot : o.root = []) (h : Registers fs o opened file raws reg last)
    (hfinal : last.templates ⊆ final.templates) (hs : s.Known final) :
    (surveyAll fs o room file raws s).Known final := by
  induction h generalizing s room with
  | done => exact hs
  | define hname hread hnew hrest ih =>
      obtain ⟨d, hd, hsame⟩ := ofExpression?_of_ofDefinition hroot hread
      obtain ⟨-, rfl⟩ := Registry.define_eq_ok_iff.mp hnew
      have hmem := hfinal (hrest.subset (List.mem_append_right _ List.mem_cons_self))
      rw [surveyAll, List.foldl_cons, surveyExpression, if_pos hname, hd]
      exact ih hfinal (hs.keep hmem hsame.symm)
  | @splice opened file target raw raws stream reg mid last hname htarget hclosed haccess hwell
      hinner hrest ihinner ihrest =>
      refine ihrest hfinal ?_
      rw [surveyExpression, if_neg (hname ▸ defineWord_ne_includeWord.symm), if_pos hname]
      by_cases hfirst : ∃ c ∈ (Text.cutLine raw.body).1, isBlank c = false
      · obtain ⟨text, hread, htext⟩ := htextual target stream haccess hwell
        rw [surveyTarget_of_includeTarget htarget hfirst]
        simp only [hread]
        cases hseen : s.seen.contains target with
        | true =>
            rw [visitFile_of_seen _ _ _ _ _ hseen]
            exact hs
        | false =>
            cases room with
            | zero => exact hs
            | succ room =>
                rw [visitFile_of_unseen _ _ _ _ _ hseen, htext]
                exact ihinner (List.Subset.trans hrest.subset hfinal) hs
      · have hblank : ∀ c ∈ (Text.cutLine raw.body).1, isBlank c = true := by
          intro c hc
          cases hc' : isBlank c with
          | true => rfl
          | false => exact absurd ⟨c, hc, hc'⟩ hfirst
        rw [surveyTarget_of_blank o hblank]
        exact hs
  | command hdefine hinclude hrest ih =>
      rw [surveyAll, List.foldl_cons, surveyExpression, if_neg hdefine, if_neg hinclude]
      exact ih hfinal hs

/-- A template that is registered on the way was read off an expression of the file, or off another
    file, which was not open. -/
theorem origin (hroot : o.root = []) (h : Registers fs o opened file raws reg last) :
    ∀ t ∈ last.templates, t ∈ reg.templates ∨
      (∃ decl ∈ raws, decl.name = defineWord ∧
        Template.ofDefinition (.ofExpression decl file) = .ok t) ∨ t.file ∉ opened := by
  have hshown : ∀ file, o.displayPath file = file := fun _ => if_pos hroot
  induction h with
  | done => exact fun t ht => .inl ht
  | @define opened file raw raws t reg mid last hname hread hnew hrest ih =>
      obtain ⟨-, rfl⟩ := Registry.define_eq_ok_iff.mp hnew
      rw [hshown] at hread
      intro u hu
      rcases ih u hu with hbefore | ⟨decl, hdecl, hfrom⟩ | helsewhere
      · rcases List.mem_append.mp hbefore with hbefore | hnow
        · exact .inl hbefore
        · obtain rfl := List.mem_singleton.mp hnow
          exact .inr (.inl ⟨raw, List.mem_cons_self, hname, hread⟩)
      · exact .inr (.inl ⟨decl, List.mem_cons_of_mem raw hdecl, hfrom⟩)
      · exact .inr (.inr helsewhere)
  | @splice opened file target raw raws stream reg mid last hname htarget hclosed haccess hwell
      hinner hrest ihinner ihrest =>
      intro u hu
      rcases ihrest u hu with hbefore | ⟨decl, hdecl, hfrom⟩ | helsewhere
      · rcases ihinner u hbefore with hbefore | ⟨decl, -, -, hread⟩ | helsewhere
        · exact .inl hbefore
        · -- it was read off the spliced file, which had to be closed
          refine .inr (.inr fun hopen => ?_)
          rw [(Template.place_of_ofDefinition hread).1, ← List.contains_iff_mem, hclosed] at hopen
          cases hopen
        · exact .inr (.inr fun hopen => helsewhere (List.mem_cons_of_mem target hopen))
      · exact .inr (.inl ⟨decl, List.mem_cons_of_mem raw hdecl, hfrom⟩)
      · exact .inr (.inr helsewhere)
  | @command opened file raw raws reg last hdefine hinclude hrest ih =>
      intro u hu
      rcases ih u hu with hbefore | ⟨decl, hdecl, hfrom⟩ | helsewhere
      · exact .inl hbefore
      · exact .inr (.inl ⟨decl, List.mem_cons_of_mem raw hdecl, hfrom⟩)
      · exact .inr (.inr helsewhere)

end Registers

/-! ## Reports -/

namespace Document

/-- The document reports that an expression uses a template before its definition. -/
def ReportsEarlyUse (doc : Document) (e : Expression) : Prop :=
  ∃ issue ∈ doc.issues, issue.line = e.line ∧ ∃ line : Nat,
    issue.message = s!"template {quoted e.name} used before definition on line {line}"

/-- The expression `decl` of the document defines a name, with text. -/
structure DefinesText (doc : Document) (decl : Expression) (n : Text) : Prop where
  mem : decl ∈ doc.expressions
  word : decl.name = defineWord
  definition : ∃ d, Definition.ofExpression? doc.name decl = some d ∧ d.name = n ∧ d.body ≠ []

/-- The template that it registers has this name and has text. -/
theorem DefinesText.template {fs : FileSystem} {o : Options} {name text n : Text}
    {decl : Expression} {t : Template} (h : (ofText fs o name text).DefinesText decl n)
    (hroot : o.root = [])
    (hread : Template.ofDefinition (.ofExpression decl (o.displayPath name)) = .ok t) :
    t.name = n ∧ t.body ≠ [] := by
  obtain ⟨d, hd, hname, hbody⟩ := h.definition
  obtain ⟨d', hd', hsame⟩ := ofExpression?_of_ofDefinition hroot hread
  obtain rfl := Option.some.inj (hd.symm.trans hd')
  simp only [Definition.entry, Template.entry, Prod.mk.injEq] at hsame
  obtain ⟨htname, -, htbody, -, -⟩ := hsame
  exact ⟨htname.symm.trans hname, htbody ▸ hbody⟩

/-- No other report about a call reads like it: behind the first space stands no quote. -/
theorem earlyUse_message_ne {n m : Text} (hn : ∀ c ∈ n, c ≠ ' ') (line expected supplied : Nat) :
    s!"{String.ofList n} requires {expected} argument(s), got {supplied}" ≠
      s!"template {quoted m} used before definition on line {line}" := by
  intro h
  have hword : "template ".toList = "template".toList ++ [' '] := by decide
  have hverb : " requires ".toList = ' ' :: 'r' :: "equires ".toList := by decide
  have hchars := congrArg String.toList h
  simp only [quoted, toString, String.toList_append, String.toList_ofList, hword, hverb,
    List.append_assoc, List.cons_append, List.nil_append] at hchars
  obtain ⟨-, hbehind⟩ := append_inj_of_span (p := (· ≠ ' ')) (by simpa using hn) (by simp)
    (List.all_eq_true.mp (by decide)) (by simp) hchars
  have hquote := (List.cons.inj (List.cons.inj hbehind).2).1
  exact absurd hquote (by decide)

/-- Expressions of a text that stand on one line are the same. -/
theorem eq_of_line_eq {t : Text} {e e' : Expression} (he : e ∈ (readAll (Stream.ofText t)).1)
    (he' : e' ∈ (readAll (Stream.ofText t)).1) (hline : e.line = e'.line) : e = e' := by
  have hdistinct : ((readAll (Stream.ofText t)).1.map (·.line)).Nodup := by
    refine List.pairwise_map.mpr ((readAll_spaced t).imp ?_)
    intro a b hlt heq
    omega
  exact List.inj_on_of_nodup_map hdistinct he he' hline

variable {fs : FileSystem} {o : Options} {name text : Text} {e : Expression}

/-- The reports of a text that can be read to its end. -/
theorem mem_issues_iff {issue : Issue} (hwell : (readAll (Stream.ofText text)).2 = none) :
    issue ∈ (ofText fs o name text).issues ↔ ∃ e ∈ (readAll (Stream.ofText text)).1,
      expressionIssue name (survey fs o name text) e = some issue := by
  rw [ofText]
  simp only [hwell, List.mem_mergeSort]
  exact List.mem_filterMap

/-- A document reports an early use if the first definition that a survey finds stands in the
    document, further down. -/
theorem reportsEarlyUse_iff (hwell : (readAll (Stream.ofText text)).2 = none)
    (he : e ∈ (readAll (Stream.ofText text)).1) :
    (ofText fs o name text).ReportsEarlyUse e ↔
      (e.name ≠ [] ∧ e.name ≠ defineWord ∧ e.name ≠ includeWord) ∧
        ∃ d, (survey fs o name text).definition? e.name = some d ∧ d.file = name ∧
          e.line < d.line := by
  constructor
  · rintro ⟨issue, hissue, hline, line, hmessage⟩
    obtain ⟨e', he', hfound⟩ := (mem_issues_iff hwell).mp hissue
    rw [expressionIssue] at hfound
    split at hfound
    · cases hfound
    rename_i hplain
    obtain ⟨d, hd, hcall⟩ := Option.bind_eq_some_iff.mp hfound
    rw [callIssue] at hcall
    split at hcall
    · rename_i hearly
      obtain rfl := Option.some.inj hcall
      obtain rfl := eq_of_line_eq he' he hline
      simp only [not_or] at hplain
      exact ⟨hplain, d, hd, hearly⟩
    · split at hcall
      · obtain rfl := Option.some.inj hcall
        have hchars := (Expression.readName_of_mem_readFrom 0 _ e' he').chars
        exact absurd hmessage (earlyUse_message_ne (fun c hc => (hchars c hc).1) _ _ _)
      · cases hcall
  · rintro ⟨⟨hname, hdefine, hinclude⟩, d, hd, hearly⟩
    have hfound : expressionIssue name (survey fs o name text) e = some ⟨e.line,
        s!"template {quoted e.name} used before definition on line {d.line}"⟩ := by
      rw [expressionIssue, if_neg (by simp [hname, hdefine, hinclude]), hd, Option.bind_some,
        callIssue]
      exact if_pos hearly
    exact ⟨_, (mem_issues_iff hwell).mpr ⟨e, he, hfound⟩, rfl, d.line, rfl⟩

end Document

/-! ## Documents that are expanded without an error -/

/-- A document stored under its name whose expansion meets no error. Files are read the same way by
    a survey and by a run, and are shown by their names. -/
structure Document.Expands (fs : FileSystem) (o : Options) (name text : Text) : Prop where
  textual : fs.Textual
  root : o.root = []
  entry : fs.access name = .ok (Stream.ofText text)
  error : (evaluate fs o name).error = none

/-- The expressions around one of a text stand above and below it. -/
theorem line_lt_of_readAll {t : Text} {e : Expression} {before behind : List Expression}
    (h : (readAll (Stream.ofText t)).1 = before ++ e :: behind) :
    (∀ a ∈ before, a.line < e.line) ∧ ∀ b ∈ behind, e.line < b.line := by
  have hspaced := readAll_spaced t
  rw [h, List.pairwise_append, List.pairwise_cons] at hspaced
  obtain ⟨-, ⟨hbehind, -⟩, hbefore⟩ := hspaced
  constructor
  · intro a ha
    have hlt := hbefore a ha e List.mem_cons_self
    omega
  · intro b hb
    have hlt := hbehind b hb
    omega

namespace Document.Expands

variable {fs : FileSystem} {o : Options} {name text : Text} {e decl : Expression} {d : Definition}
  {results : List Expanded}

theorem shown (h : Expands fs o name text) (file : Text) : o.displayPath file = file :=
  if_pos h.root

theorem smooth (h : Expands fs o name text) : (Expander.start fs o name).Smooth := by
  refine ⟨Expander.ready_start h.entry, ?_⟩
  rw [Expander.outlook_start h.entry]
  exact h.error

/-- The document is read to its end, and no name is registered twice. -/
theorem exists_registers (h : Expands fs o name text) :
    (readAll (Stream.ofText text)).2 = none ∧ ∃ last : Registry, last.Sound ∧
      Registers fs o [name] name (readAll (Stream.ofText text)).1 {} last := by
  have herror := h.error
  rw [evaluate_of_access h.entry] at herror
  obtain ⟨hwell, hregisters⟩ := registers_of_evalExpressions herror
  exact ⟨hwell, _, hregisters.sound ⟨.nil, fun t ht => absurd ht List.not_mem_nil⟩, hregisters⟩

/-- What the survey of the document finds is registered. -/
theorem exists_template (h : Expands fs o name text) {last : Registry}
    (hregisters : Registers fs o [name] name (readAll (Stream.ofText text)).1 {} last) {n : Text}
    (hd : (survey fs o name text).definition? n = some d) :
    ∃ t ∈ last.templates, t.name = n ∧ t.file = d.file ∧ t.line = d.line := by
  rw [survey, visitFile_of_unseen _ _ _ _ _ rfl] at hd
  have hknown : (surveyAll fs o fs.names.length name (readAll (Stream.ofText text)).1
      { seen := [name] }).Known last :=
    hregisters.known h.textual h.root (List.Subset.refl _) fun d hd => absurd hd List.not_mem_nil
  obtain ⟨t, ht, hsame⟩ := hknown d (List.mem_of_find?_eq_some hd)
  have hname : d.name = n := by simpa using List.find?_some hd
  simp only [Template.entry, Definition.entry, Prod.mk.injEq] at hsame
  obtain ⟨htname, -, -, hfile, hline⟩ := hsame
  exact ⟨t, ht, htname.trans hname, hfile, hline⟩

/-- The moment at which an expression of a file is carried out. -/
theorem moment (h : Expands fs o name text) {f : Expanded}
    (hproduces : (Expander.start fs o name).Produces f results) :
    ∃ file before raw behind reg, f = .ofExpression raw file ∧
      Midway fs o file before (raw :: behind) reg ∧
      (((f.name = defineWord ∨ f.name = includeWord) ∧ results = []) ∨
        (f.name ≠ defineWord ∧ f.name ≠ includeWord ∧ evalCommand reg [] f = .ok results)) := by
  obtain ⟨file, before, raw, behind, reg, hf, hmidway, hresults⟩ :=
    hproduces.midway h.smooth (Expander.passed_start h.entry)
  rw [Expander.start_of_access h.entry] at hf hmidway
  rw [h.shown] at hf
  exact ⟨file, before, raw, behind, reg, hf, hmidway, hresults⟩

/-- A document that is midway is read up to there. -/
theorem readAll_eq (h : Expands fs o name text) {before behind : List Expression} {reg : Registry}
    (hmidway : Midway fs o name before behind reg) :
    (readAll (Stream.ofText text)).1 = before ++ behind := by
  obtain ⟨stream, haccess, hall⟩ := hmidway.whole
  obtain rfl := Except.ok.inj (h.entry.symm.trans haccess)
  exact hall

/-- The moment at which a command of the document is carried out. -/
theorem midway (h : Expands fs o name text) (hdefine : e.name ≠ defineWord)
    (hinclude : e.name ≠ includeWord)
    (hproduces : (Expander.start fs o name).Produces (.ofExpression e name) results) :
    ∃ before behind reg, (readAll (Stream.ofText text)).1 = before ++ e :: behind ∧
      Midway fs o name before (e :: behind) reg ∧
      evalCommand reg [] (.ofExpression e name) = .ok results := by
  obtain ⟨file, before, raw, behind, reg, hf, hmidway, hresults⟩ := h.moment hproduces
  obtain rfl : e = raw := congrArg Expanded.toExpression hf
  obtain rfl : name = file := congrArg Expanded.file hf
  refine ⟨before, behind, reg, h.readAll_eq hmidway, hmidway, ?_⟩
  rcases hresults with ⟨hdirective | hdirective, -⟩ | ⟨-, -, heval⟩
  · exact absurd hdirective hdefine
  · exact absurd hdirective hinclude
  · exact heval

/-- A command produces itself if its definition stands in the document, further down. -/
theorem results_of_early (h : Expands fs o name text) (hdefine : e.name ≠ defineWord)
    (hinclude : e.name ≠ includeWord) (hd : (survey fs o name text).definition? e.name = some d)
    (hfile : d.file = name) (hline : e.line < d.line)
    (hproduces : (Expander.start fs o name).Produces (.ofExpression e name) results) :
    results = [.ofExpression e name] := by
  obtain ⟨-, last, -, hregisters⟩ := h.exists_registers
  obtain ⟨t, ht, hname, htfile, htline⟩ := h.exists_template hregisters hd
  obtain ⟨before, behind, reg, hall, hmidway, heval⟩ := h.midway hdefine hinclude hproduces
  rcases hregisters.origin h.root t ht with hnone | ⟨decl, hdecl, hword, hread⟩ | helsewhere
  · cases hnone
  · obtain ⟨-, hplace⟩ := Template.place_of_ofDefinition hread
    -- the definition stands below the command, so its name is still free
    have hbehind : decl ∈ e :: behind := by
      rw [hall] at hdecl
      rcases List.mem_append.mp hdecl with hbefore | hbehind
      · have hlt := (line_lt_of_readAll hall).1 decl hbefore
        omega
      · exact hbehind
    obtain ⟨opened, final, hahead⟩ := hmidway.ahead
    have hfree := hahead.free hbehind hword (by rw [h.shown]; exact hread)
    have hcallee : reg.callee? e.name = none := by
      refine Registry.callee?_eq_none_iff.mpr (.inl ?_)
      rw [← hname]
      simpa [Registry.contains] using hfree
    rw [evalCommand_plain (e := .ofExpression e name) hcallee] at heval
    exact (Except.ok.inj heval).symm
  · exact absurd (List.mem_singleton.mpr (htfile.trans hfile)) helsewhere

/-- Unless a command is reported, a definition of its name in the document does not stand below
    it. -/
theorem line_le_of_not_reports (h : Expands fs o name text) (hplain : e.name ≠ defineWord)
    (hinclude : e.name ≠ includeWord) (he : e ∈ (ofText fs o name text).expressions)
    (hdefines : (ofText fs o name text).DefinesText decl e.name)
    (hreports : ¬(ofText fs o name text).ReportsEarlyUse e) : decl.line ≤ e.line := by
  obtain ⟨d, hd, hname, -⟩ := hdefines.definition
  obtain ⟨hwell, last, hsound, hregisters⟩ := h.exists_registers
  -- both the definition and what the survey has found are registered under the name
  obtain ⟨t, ht, hread⟩ := hregisters.exists_mem hdefines.mem hdefines.word
  obtain ⟨htname, -⟩ := hdefines.template h.root hread
  obtain ⟨found, hfound⟩ : ∃ found, (survey fs o name text).definition? e.name = some found := by
    rw [survey, visitFile_of_unseen _ _ _ _ _ rfl, ← hname]
    exact exists_definition?_surveyAll hdefines.mem hdefines.word hd
  obtain ⟨u, hu, huname, hufile, huline⟩ := h.exists_template hregisters hfound
  obtain rfl : t = u := by
    have hget := hsound.get?_of_mem ht
    rw [htname, ← huname, hsound.get?_of_mem hu] at hget
    exact (Option.some.inj hget).symm
  obtain ⟨hfile, hline⟩ := Template.place_of_ofDefinition hread
  rw [h.shown] at hfile
  refine Nat.le_of_not_lt fun hlt => hreports ?_
  have hne : e.name ≠ [] := htname ▸ (readable_of_ofDefinition hread).1.named
  exact (reportsEarlyUse_iff hwell he).mpr ⟨⟨hne, hplain, hinclude⟩, found, hfound,
    hufile.symm.trans hfile, by omega⟩

/-- A command whose name has a definition with text in the document is a call, unless it is
    reported. -/
theorem head?_stack_of_not_reports (h : Expands fs o name text) (hplain : e.name ≠ defineWord)
    (hinclude : e.name ≠ includeWord) (he : e ∈ (ofText fs o name text).expressions)
    (hdefines : (ofText fs o name text).DefinesText decl e.name)
    (hreports : ¬(ofText fs o name text).ReportsEarlyUse e)
    (hproduces : (Expander.start fs o name).Produces (.ofExpression e name) results) :
    ∀ r ∈ results, r.stack.head? = some (.ofExpression e name) := by
  have hline := h.line_le_of_not_reports hplain hinclude he hdefines hreports
  obtain ⟨before, behind, reg, hall, hmidway, heval⟩ := h.midway hplain hinclude hproduces
  have hbefore : decl ∈ before := by
    have hdecl : decl ∈ (readAll (Stream.ofText text)).1 := hdefines.mem
    rw [hall] at hdecl
    rcases List.mem_append.mp hdecl with hbefore | hbehind
    · exact hbefore
    · rcases List.mem_cons.mp hbehind with rfl | hbehind
      · exact absurd hdefines.word hplain
      · have hlt := (line_lt_of_readAll hall).2 decl hbehind
        omega
  obtain ⟨t, hread, hget⟩ := hmidway.registered decl hbefore hdefines.word
  obtain ⟨htname, hbody⟩ := hdefines.template h.root hread
  have hcallee : reg.callee? e.name = some t := by
    rw [Registry.callee?, ← htname, hget]
    exact Option.filter_eq_some_iff.mpr ⟨rfl, by simpa using hbody⟩
  have hne : e.name ≠ [] := htname ▸ (readable_of_ofDefinition hread).1.named
  exact head?_stack_of_evalCommand hne hcallee heval

/-- Every expression of the document is carried out. -/
theorem exists_produces (h : Expands fs o name text)
    (he : e ∈ (ofText fs o name text).expressions) :
    ∃ results, (Expander.start fs o name).Produces (.ofExpression e name) results := by
  have hreaches : Reaches fs o name (readAll (Stream.ofText text)).1
      (.ofExpression e (o.displayPath name)) := .here he
  rw [h.shown] at hreaches
  exact Expander.exists_produces_of_tokenises
    ((Expander.tokenises_start_iff h.entry h.error).mpr hreaches) h.smooth

/-- What an expression produces stands together among the results. -/
theorem isInfix_drain (h : Expands fs o name text) {f : Expanded}
    (hproduces : (Expander.start fs o name).Produces f results) :
    results <:+: (Expander.start fs o name).drain.1 := by
  have hinfix := hproduces.results_isInfix h.smooth
  rw [Expander.outlook_start h.entry] at hinfix
  rw [(Expander.drain_start_of_access h.entry).1]
  exact hinfix

/-- A result outside every call that stands on a line of the document was produced by the expression
    on this line. -/
theorem produces_of_direct (h : Expands fs o name text)
    (he : e ∈ (ofText fs o name text).expressions) {r : Expanded}
    (hr : r ∈ (Expander.start fs o name).drain.1) (hstack : r.stack = []) (hfile : r.file = name)
    (hline : r.line = e.line) :
    ∃ results, (Expander.start fs o name).Produces (.ofExpression e name) results ∧
      r ∈ results := by
  have hrunning : (Expander.start fs o name).status = .running := by
    rw [Expander.start_of_access h.entry]
  obtain ⟨f, results, hproduces, hmem⟩ := Expander.exists_produces_of_mem_drain h.smooth hrunning
    (Expander.pending_start fs o name) hr
  obtain ⟨file, before, raw, behind, reg, rfl, hmidway, hresults⟩ := h.moment hproduces
  rcases hresults with ⟨-, rfl⟩ | ⟨-, -, heval⟩
  · cases hmem
  -- outside every call there is nothing but the command itself
  have hself : Truthful reg (.ofExpression raw file) { Expanded.ofExpression raw file with
    stack := [] } := Truthful.here rfl
  have htruthful := hself.evalCommand rfl
  rw [heval] at htruthful
  obtain rfl := (htruthful r hmem).direct.mp hstack
  obtain rfl : file = name := hfile
  have hraw : raw ∈ (readAll (Stream.ofText text)).1 := by
    rw [h.readAll_eq hmidway]
    exact List.mem_append_right _ List.mem_cons_self
  obtain rfl := eq_of_line_eq hraw he hline
  exact ⟨results, hproduces, hmem⟩

end Document.Expands

/-- The report of an early use tells what expansion does. Let a document be stored under its name,
    let files be shown by their names, and let the expansion of the document finish. An expression
    of the document that is reported as used before its definition is handed out unchanged, outside
    every call, and nothing else is produced for it. A command whose name has a definition with text
    in the document, and which is not so reported, is expanded: no result outside every call stands
    on its line of the document, and all that is produced for it, which stands together among the
    results, is inside its call first. -/
theorem Document.earlyUse_produces (files : List (Text × Bytes)) (o : Options) (name text : Text)
    (hroot : o.root = [])
    (hentry : (FileSystem.ofContents files).access name = .ok (.ofBytes (encodeUtf8 text) none))
    (hfinished : (Expander.start (.ofContents files) o name).drain.2.2.status = .finished) :
    let doc := ofText (.ofContents files) o name text
    let run := Expander.start (.ofContents files) o name
    ∀ e ∈ doc.expressions,
      (doc.ReportsEarlyUse e → .ofExpression e name ∈ run.drain.1 ∧
        ∀ own, run.Produces (.ofExpression e name) own ↔ own = [.ofExpression e name]) ∧
      (e.name ≠ defineWord → e.name ≠ includeWord → (∃ decl, doc.DefinesText decl e.name) →
        ¬doc.ReportsEarlyUse e →
        (∀ r ∈ run.drain.1, ¬(r.stack = [] ∧ r.file = name ∧ r.line = e.line)) ∧
        (∃ own, run.Produces (.ofExpression e name) own) ∧
        ∀ own, run.Produces (.ofExpression e name) own →
          own <:+: run.drain.1 ∧ ∀ r ∈ own, r.stack.head? = some (.ofExpression e name)) := by
  intro doc run e he
  rw [Stream.ofBytes_encodeUtf8] at hentry
  have h : Expands (.ofContents files) o name text := ⟨FileSystem.textual_ofContents files, hroot,
    hentry, (Expander.finished_start_iff hentry).1.mp hfinished⟩
  obtain ⟨own, hown⟩ := h.exists_produces he
  constructor
  · intro hreports
    obtain ⟨⟨-, hdefine, hinclude⟩, d, hd, hfile, hline⟩ :=
      (reportsEarlyUse_iff h.exists_registers.1 he).mp hreports
    have hself : ∀ own, run.Produces (.ofExpression e name) own → own = [.ofExpression e name] :=
      fun own hown => h.results_of_early hdefine hinclude hd hfile hline hown
    obtain rfl := hself own hown
    refine ⟨(h.isInfix_drain hown).subset List.mem_cons_self, fun own => ⟨hself own, ?_⟩⟩
    rintro rfl
    exact hown
  · rintro hdefine hinclude ⟨decl, hdecl⟩ hreports
    have hcall : ∀ own, run.Produces (.ofExpression e name) own →
        ∀ r ∈ own, r.stack.head? = some (.ofExpression e name) :=
      fun own hown => h.head?_stack_of_not_reports hdefine hinclude he hdecl hreports hown
    refine ⟨?_, ⟨own, hown⟩, fun own hown => ⟨h.isInfix_drain hown, hcall own hown⟩⟩
    rintro r hr ⟨hstack, hfile, hline⟩
    obtain ⟨own, hown, hmem⟩ := h.produces_of_direct he hr hstack hfile hline
    have hhead := hcall own hown r hmem
    rw [hstack] at hhead
    cases hhead

/-- A template that is used above and below its definition is expanded below it only. -/
theorem Document.earlyUse_produces_twice :
    let text := "a x\ndefine a p\n\tsay $p\na y\n".toList
    let fs := FileSystem.ofContents [(['m'], encodeUtf8 text)]
    let doc := ofText fs {} ['m'] text
    let run := Expander.start fs {} ['m']
    let above : Expression := ⟨1, [], ['a'], ['x']⟩
    let below : Expression := ⟨4, [], ['a'], ['y']⟩
    (doc.ReportsEarlyUse above ∧ .ofExpression above ['m'] ∈ run.drain.1) ∧
      ¬doc.ReportsEarlyUse below ∧ ∃ own, run.Produces (.ofExpression below ['m']) own ∧
        own <:+: run.drain.1 ∧ ∀ r ∈ own, r.stack.head? = some (.ofExpression below ['m']) := by
  intro text fs doc run above below
  let decl : Expression := ⟨2, [], defineWord, "a p\nsay $p".toList⟩
  let t : Template := ⟨['a'], [['p']], "say $p\n".toList, .ofExpression decl ['m']⟩
  have hread : readAll (.ofBytes (encodeUtf8 text) none) = ([above, decl, below], none) := by
    decide +kernel
  have hexpressions : doc.expressions = [above, decl, below] := by decide +kernel
  have hissues : doc.issues = [⟨1, "template \"a\" used before definition on line 2"⟩] := by
    decide +kernel
  have hentry : fs.access ['m'] = .ok (.ofBytes (encodeUtf8 text) none) := rfl
  have hshown : Options.displayPath {} ['m'] = ['m'] := rfl
  have htemplate : Template.ofDefinition (.ofExpression decl ['m']) = .ok t :=
    eq_ok_of_toOption (by decide +kernel)
  have hdefines : doc.DefinesText decl ['a'] := by
    refine ⟨by rw [hexpressions]; simp, rfl,
      ⟨['a'], [['p']], "say $p\n".toList, [], 2, ['m']⟩, by decide +kernel, rfl, by decide⟩
  obtain ⟨results, hcall⟩ : ∃ results,
      evalCommand ⟨[t]⟩ [] (.ofExpression below ['m']) = .ok results := by
    have hexpand : (expandFileCommand ⟨[t]⟩ (.ofExpression below ['m']) {}).1.toOption.isSome =
        true := by decide +kernel
    obtain ⟨results, hresults⟩ := Option.isSome_iff_exists.mp hexpand
    rw [expandFileCommand_eq_evalCommand _ rfl] at hresults
    exact ⟨results, eq_ok_of_toOption hresults⟩
  have herror : (evaluate fs {} ['m']).error = none := by
    rw [evaluate_of_access hentry, hread]
    simp only
    rw [evalExpressions, hshown, evalExpression_command (by decide) (by decide),
      evalCommand_plain rfl, Evaluation.give_andThen, evalExpressions, hshown,
      evalExpression_define rfl htemplate rfl, Evaluation.give_andThen, evalExpressions, hshown,
      evalExpression_command (by decide) (by decide),
      show evalCommand ⟨[] ++ [t]⟩ [] (.ofExpression below ['m']) = .ok results from hcall]
    simp only
    rw [Evaluation.give_andThen, evalExpressions]
    rfl
  have hfinished := (Expander.finished_start_iff (o := {}) hentry).1.mpr herror
  have hreports : doc.ReportsEarlyUse above := by
    refine ⟨⟨1, "template \"a\" used before definition on line 2"⟩, ?_, rfl, 2, by decide +kernel⟩
    rw [hissues]
    exact List.mem_cons_self
  have hsilent : ¬doc.ReportsEarlyUse below := by
    rintro ⟨issue, hissue, hline, -⟩
    rw [hissues] at hissue
    rw [List.mem_singleton.mp hissue] at hline
    cases hline
  have hmain := Document.earlyUse_produces [(['m'], encodeUtf8 text)] {} ['m'] text rfl hentry
    hfinished
  refine ⟨⟨hreports, ((hmain above (by rw [hexpressions]; simp)).1 hreports).1⟩, hsilent, ?_⟩
  obtain ⟨-, ⟨own, hown⟩, hall⟩ := (hmain below (by rw [hexpressions]; simp)).2 (by decide)
    (by decide) ⟨decl, hdefines⟩ hsilent
  exact ⟨own, hown, hall own hown⟩

end LineScript
