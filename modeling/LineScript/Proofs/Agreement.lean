import LineScript.Document.Basic
import LineScript.Proofs.Contents
import LineScript.Proofs.Registering
import LineScript.Proofs.Trimming

/-!
# A document and its run agree on what is defined

A survey and a run walk the same files in different ways. The survey visits each file once and
keeps the first definition of a name. The run splices a file as often as it is named, and stops at
the second definition of a name. If it does not stop, both see the same definitions in the same
order: a file that the survey passes over because it has seen it is one whose definitions the run
has registered, so when the run splices it again it finds none in it.

* `surveyTarget_of_includeTarget`: both take an `include` to the same file.
* `Registers.follows`: the survey of a file's expressions follows their evaluation.
* `Document.entry_definition?_of_finished`: a document and its run, name by name.
-/

namespace LineScript

/-! ## The file of an `include` -/

/-- The first line of a text ends before the first line feed. -/
theorem Text.cutLine_fst (t : Text) : (Text.cutLine t).1 = t.takeWhile (· ≠ '\n') := by
  rw [Text.cutLine]
  have happend := List.takeWhile_append_dropWhile (p := (· ≠ '\n')) (l := t)
  split
  · rename_i hdrop
    rw [hdrop, List.append_nil] at happend
    exact happend.symm
  · rfl

/-- A text with a single field is that field between blanks. -/
theorem Text.eq_of_cutField {t : Text} (h : (Text.cutField t).2 = []) :
    ∃ before behind, t = before ++ ((Text.cutField t).1 ++ behind) ∧
      (∀ c ∈ before, isBlank c = true) ∧ ∀ c ∈ behind, isBlank c = true := by
  obtain ⟨before, behind, ht, hbefore, hrest⟩ := Text.cutField_layout t
  exact ⟨before, behind, ht, hbefore, Text.isBlank_of_trimStart_eq_nil (hrest.symm.trans h)⟩

/-- Without a limit the first argument is the first field. -/
theorem splitArguments_none {body : Text} (h : body ≠ []) :
    splitArguments none body =
      (Text.cutField body).1 :: splitArguments none (Text.cutField body).2 := by
  rw [splitArguments.eq_def, dif_neg h]
  rfl

/-- A field does not end with a line feed. -/
theorem Text.stripNewline_cutField (t : Text) :
    Text.stripNewline (Text.cutField t).1 = (Text.cutField t).1 := by
  refine if_neg ?_
  intro hlast
  have hblank := Text.isBlank_of_mem_cutField (List.mem_of_getLast? hlast)
  exact absurd hblank (by decide)

/-- The file that an `include` names, if it is spliced, is its only field and the extension. -/
theorem includeTarget_eq_ok {o : Options} {body target : Text}
    (h : includeTarget o body = .ok target) :
    (Text.cutField body).2 = [] ∧ target = (Text.cutField body).1 ++ o.suffix := by
  have hnone : splitArguments none [] = [] := by rw [splitArguments.eq_def, dif_pos rfl]
  rw [includeTarget] at h
  simp only at h
  split at h
  · cases h
  · rename_i hsize
    -- a single argument is the first field, and nothing follows it
    have hlength : (splitArguments none body).length = 1 := hsize
    have hbody : body ≠ [] := by
      rintro rfl
      rw [hnone] at hlength
      cases hlength
    have hget : (Arguments.ofBody none body).get 0 = (Text.cutField body).1 := by
      rw [Arguments.get, Arguments.ofBody, splitArguments_none hbody]
      exact Text.stripNewline_cutField body
    rw [splitArguments_none hbody] at hlength
    refine ⟨?_, ?_⟩
    · refine Classical.byContradiction fun hrest => ?_
      rw [splitArguments_none hrest] at hlength
      cases hlength
    · split at h
      · cases h
      · split at h
        · cases h
        · rw [← hget]
          exact (Except.ok.inj h).symm
  · cases h

/-- The only field of a text is its trimmed first line, unless that line is blank. -/
theorem Text.trim_cutLine {t : Text} (h : (Text.cutField t).2 = [])
    (hfirst : ∃ c ∈ (Text.cutLine t).1, isBlank c = false) :
    (Text.cutField t).1 ≠ [] ∧ Text.trim (Text.cutLine t).1 = (Text.cutField t).1 := by
  obtain ⟨before, behind, ht, hbefore, hbehind⟩ := Text.eq_of_cutField h
  have hfield := fun c => Text.isBlank_of_mem_cutField (t := t) (c := c)
  generalize (Text.cutField t).1 = field at ht hfield ⊢
  have hline : ∀ c ∈ field, (decide (c ≠ '\n')) = true := by
    intro c hc
    rw [decide_eq_true_eq]
    rintro rfl
    exact absurd (hfield _ hc) (by decide)
  have hrest : ∀ c ∈ behind.takeWhile (· ≠ '\n'), isBlank c = true :=
    fun c hc => hbehind c ((List.takeWhile_sublist _).subset hc)
  -- a line feed in front of the field would leave a blank first line
  have hcut : (Text.cutLine t).1 = before ++ (field ++ behind.takeWhile (· ≠ '\n')) := by
    obtain ⟨c, hc, hsolid⟩ := hfirst
    rw [Text.cutLine_fst, ht, List.takeWhile_append] at hc ⊢
    split at hc
    · rename_i hfull
      rw [if_pos hfull, List.takeWhile_append_of_pos hline]
    · have hblank := hbefore c ((List.takeWhile_sublist _).subset hc)
      rw [hsolid] at hblank
      cases hblank
  have hne : field ≠ [] := by
    rintro rfl
    obtain ⟨c, hc, hsolid⟩ := hfirst
    have hblank : isBlank c = true := by
      rw [hcut, List.nil_append] at hc
      rcases List.mem_append.mp hc with hc | hc
      · exact hbefore c hc
      · exact hrest c hc
    rw [hsolid] at hblank
    cases hblank
  refine ⟨hne, ?_⟩
  rw [hcut]
  refine Text.trim_append hbefore ?_ ?_ hne hrest
  · intro c hc
    exact hfield c (List.mem_of_head? hc)
  · intro c hc
    exact hfield c (List.mem_of_getLast? hc)

/-- A survey takes an `include` to the file that a run splices, if its first line is not blank. -/
theorem surveyTarget_of_includeTarget {o : Options} {body target : Text}
    (h : includeTarget o body = .ok target)
    (hfirst : ∃ c ∈ (Text.cutLine body).1, isBlank c = false) :
    surveyTarget o body = some target := by
  obtain ⟨hsingle, rfl⟩ := includeTarget_eq_ok h
  obtain ⟨hne, htrim⟩ := Text.trim_cutLine hsingle hfirst
  rw [surveyTarget, htrim]
  split
  · rename_i hempty
    exact absurd hempty hne
  · rfl

/-! ## What a definition says -/

/-- What a definition says: its name, its parameters, its text, its file and its line. -/
def Definition.entry (d : Definition) : Text × List Text × Text × Text × Nat :=
  (d.name, d.params, d.body, d.file, d.line)

/-- What a registered template says. -/
def Template.entry (t : Template) : Text × List Text × Text × Text × Nat :=
  (t.name, t.params, t.body, t.file, t.line)

/-- A survey has found what is registered, in the same order. -/
def Survey.Matches (s : Survey) (reg : Registry) : Prop :=
  s.definitions.map Definition.entry = reg.templates.map Template.entry

/-- Lists that say the same say the same about every name. -/
theorem entry_find? {ds : List Definition} {ts : List Template}
    (h : ds.map Definition.entry = ts.map Template.entry) (name : Text) :
    (ds.find? (·.name = name)).map Definition.entry =
      (ts.find? (·.name = name)).map Template.entry := by
  have hfind := congrArg (List.find? (fun entry => decide (entry.1 = name))) h
  rw [List.find?_map, List.find?_map] at hfind
  exact hfind

/-- A definition that a run can read is seen by a survey, if files are shown by their names. -/
theorem ofExpression?_of_ofDefinition {o : Options} {file : Text} {raw : Expression} {t : Template}
    (hroot : o.root = [])
    (h : Template.ofDefinition (.ofExpression raw (o.displayPath file)) = .ok t) :
    ∃ d, Definition.ofExpression? file raw = some d ∧ d.entry = t.entry := by
  have hfile : o.displayPath file = file := if_pos hroot
  have hhead : (splitDefinition raw.body).1 = (Text.cutLine raw.body).1 := by
    rw [splitDefinition]
    split
    · rename_i hcut; rw [hcut]
    · rename_i hcut; rw [hcut]
  rw [hfile, Template.ofDefinition] at h
  simp only at h
  rw [show (Expanded.ofExpression raw file).body = raw.body from rfl, hhead] at h
  split at h
  · cases h
  · rename_i hname
    split at h
    · cases h
    · obtain rfl := Except.ok.inj h
      exact ⟨_, if_neg hname, rfl⟩

/-- A definition that is kept counts unless there is one of its name. -/
theorem Survey.definition?_keep (s : Survey) (d : Definition) (n : Text) :
    (s.keep d).definition? n = (s.definition? n).or (if d.name = n then some d else none) := by
  rw [Survey.keep]
  split
  · rename_i hknown
    split
    · rename_i hname
      rw [hname] at hknown
      obtain ⟨d', hd'⟩ := Option.isSome_iff_exists.mp hknown
      rw [hd']
      rfl
    · rw [Option.or_none]
  · rw [Survey.definition?, Survey.definition?, List.find?_append, List.find?_singleton]
    simp

/-- A definition that is registered is kept. -/
theorem Survey.Matches.keep {s : Survey} {reg last : Registry} {d : Definition} {t : Template}
    (h : s.Matches reg) (hsame : d.entry = t.entry) (hnew : reg.define t = .ok last) :
    (s.keep d).Matches last ∧ (s.keep d).seen = s.seen := by
  obtain ⟨hfree, rfl⟩ := Registry.define_eq_ok_iff.mp hnew
  have hname : d.name = t.name := congrArg Prod.fst hsame
  have hnone : s.definition? d.name = none := by
    have hfind := entry_find? h d.name
    rw [hname, show reg.templates.find? (·.name = t.name) = none from hfree] at hfind
    rw [hname]
    exact Option.map_eq_none_iff.mp hfind
  rw [Survey.keep, hnone]
  refine ⟨?_, rfl⟩
  show (s.definitions ++ [d]).map Definition.entry = (reg.templates ++ [t]).map Template.entry
  rw [List.map_append, List.map_append, show s.definitions.map Definition.entry = _ from h]
  simp [hsame]

/-! ## A survey follows an evaluation -/

/-- What has been visited leaves fewer names to visit. -/
theorem closedNames_le_of_subset (fs : FileSystem) {seen more : List Text} (h : seen ⊆ more) :
    closedNames fs more ≤ closedNames fs seen := by
  refine List.countP_mono_left ?_
  intro name _ hnew
  simp only [Bool.not_eq_true', List.contains_eq_mem, decide_eq_false_iff_not] at hnew ⊢
  exact fun hseen => hnew (h hseen)

/-- A survey that has come as far as an evaluation: it has found what is registered, and of every
    file that it has seen and that is not open, the definitions are registered. -/
structure Follows (fs : FileSystem) (o : Options) (opened : List Text) (s : Survey)
    (reg : Registry) : Prop where
  found : s.Matches reg
  seen : ∀ f ∈ s.seen, f ∈ opened ∨
    ∀ stream, fs.access f = .ok stream → Covered fs o reg f (readAll stream).1

/-- Evaluating covers no less. -/
theorem Covered.mono {fs : FileSystem} {o : Options} {reg last : Registry} {file : Text}
    {es : List Expression} (h : Covered fs o reg file es)
    (hmore : ∀ name, reg.contains name = true → last.contains name = true) :
    Covered fs o last file es :=
  fun e t hreach hdefine ht => hmore _ (h e t hreach hdefine ht)

/-- The survey of the expressions of a file, with room for that many files inside each other. -/
def surveyAll (fs : FileSystem) (o : Options) (room : Nat) (file : Text) (es : List Expression)
    (s : Survey) : Survey :=
  es.foldl (surveyExpression fs o (visitFile fs o room) file) s

/-- A file that has not been seen is surveyed to its end. -/
theorem visitFile_of_unseen (fs : FileSystem) (o : Options) (room : Nat) (file text : Text)
    {s : Survey} (h : s.seen.contains file = false) :
    visitFile fs o (room + 1) file text s =
      surveyAll fs o room file (readAll (Stream.ofText text)).1
        { s with seen := file :: s.seen } := by
  rw [visitFile, if_neg (by rw [h]; exact Bool.false_ne_true)]
  rfl

/-- A file that has been seen is passed over. -/
theorem visitFile_of_seen (fs : FileSystem) (o : Options) (room : Nat) (file text : Text)
    {s : Survey} (h : s.seen.contains file = true) : visitFile fs o room file text s = s := by
  cases room with
  | zero => rfl
  | succ room => rw [visitFile, if_pos h]

section Following

variable {fs : FileSystem} {o : Options} {opened : List Text} {file : Text}
  {raw : Expression} {reg mid last : Registry} {s : Survey} {room : Nat}

/-- A survey follows a definition that is registered. -/
theorem Follows.define {t : Template} (hroot : o.root = []) (hs : Follows fs o opened s reg)
    (hname : raw.name = defineWord)
    (hread : Template.ofDefinition (.ofExpression raw (o.displayPath file)) = .ok t)
    (hnew : reg.define t = .ok mid) :
    ∃ next, surveyExpression fs o (visitFile fs o room) file s raw = next ∧
      Follows fs o opened next mid ∧ s.seen ⊆ next.seen := by
  obtain ⟨d, hd, hsame⟩ := ofExpression?_of_ofDefinition hroot hread
  obtain ⟨hmatches, hseen⟩ := hs.found.keep hsame hnew
  refine ⟨s.keep d, ?_, ⟨hmatches, ?_⟩, ?_⟩
  · rw [surveyExpression, if_pos hname, hd]
  · rw [hseen]
    intro f hf
    rcases hs.seen f hf with hopen | hcovered
    · exact .inl hopen
    · refine .inr fun stream haccess => ?_
      exact (hcovered stream haccess).mono fun _ => Registry.contains_of_define hnew
  · rw [hseen]
    exact List.Subset.refl _

/-- A survey follows a splice, if it follows the evaluation of the spliced file. -/
theorem Follows.splice {target : Text} {stream : Stream} (htextual : fs.Textual)
    (hs : Follows fs o opened s reg) (hname : raw.name = includeWord)
    (htarget : includeTarget o raw.body = .ok target)
    (hfirst : ∃ c ∈ (Text.cutLine raw.body).1, isBlank c = false)
    (hclosed : opened.contains target = false) (haccess : fs.access target = .ok stream)
    (hwell : (readAll stream).2 = none)
    (hinner : Registers fs o (target :: opened) target (readAll stream).1 reg mid)
    (hroom : closedNames fs s.seen ≤ room)
    (hvisit : ∀ {s : Survey} {room : Nat}, closedNames fs s.seen ≤ room →
      Follows fs o (target :: opened) s reg →
      Follows fs o (target :: opened) (surveyAll fs o room target (readAll stream).1 s) mid ∧
        s.seen ⊆ (surveyAll fs o room target (readAll stream).1 s).seen) :
    ∃ next, surveyExpression fs o (visitFile fs o room) file s raw = next ∧
      Follows fs o opened next mid ∧ s.seen ⊆ next.seen := by
  obtain ⟨text, hread, htext⟩ := htextual target stream haccess hwell
  have hdefine : raw.name ≠ defineWord := hname ▸ defineWord_ne_includeWord.symm
  rw [surveyExpression, if_neg hdefine, if_pos hname, surveyTarget_of_includeTarget htarget hfirst]
  simp only [hread]
  by_cases hseen : s.seen.contains target = true
  · -- the file is not open, so its definitions are registered and the run finds none in it
    refine ⟨s, visitFile_of_seen _ _ _ _ _ hseen, ?_, List.Subset.refl _⟩
    rcases hs.seen target (by simpa using hseen) with hopen | hcovered
    · rw [List.contains_iff_mem.mpr hopen] at hclosed
      cases hclosed
    · rw [hinner.eq_of_covered (hcovered stream haccess)]
      exact hs
  · have hunseen : s.seen.contains target = false := by simpa using hseen
    have hlt := closedNames_cons_lt (FileSystem.mem_names_of_access haccess) hunseen
    obtain ⟨room, rfl⟩ := Nat.exists_eq_succ_of_ne_zero (show room ≠ 0 by omega)
    have hopened : Follows fs o (target :: opened) { s with seen := target :: s.seen } reg := by
      refine ⟨hs.found, ?_⟩
      intro f hf
      rcases List.mem_cons.mp hf with rfl | hf
      · exact .inl List.mem_cons_self
      · exact (hs.seen f hf).imp_left (List.mem_cons_of_mem target)
    obtain ⟨hfollows, hsub⟩ := hvisit (s := { s with seen := target :: s.seen })
      (show closedNames _ (target :: s.seen) ≤ room by omega) hopened
    refine ⟨_, ?_, ⟨hfollows.found, ?_⟩, ?_⟩
    · rw [visitFile_of_unseen _ _ _ _ _ hunseen, htext]
    · intro f hf
      rcases hfollows.seen f hf with hopen | hcovered
      · rcases List.mem_cons.mp hopen with rfl | hopen
        · -- the file has just been evaluated
          refine .inr fun stream' haccess' => ?_
          obtain rfl := Except.ok.inj (haccess.symm.trans haccess')
          exact hinner.covered
        · exact .inl hopen
      · exact .inr hcovered
    · exact fun f hf => hsub (List.mem_cons_of_mem target hf)

/-- The survey of a file's expressions follows their evaluation, and forgets no file. -/
theorem Registers.follows {raws : List Expression} (htextual : fs.Textual) (hroot : o.root = [])
    (h : Registers fs o opened file raws reg last)
    (hfirst : ∀ e, Reaches fs o file raws e → e.name = includeWord →
      ∃ c ∈ (Text.cutLine e.body).1, isBlank c = false)
    (hroom : closedNames fs s.seen ≤ room) (hs : Follows fs o opened s reg) :
    Follows fs o opened (surveyAll fs o room file raws s) last ∧
      s.seen ⊆ (surveyAll fs o room file raws s).seen := by
  induction h generalizing s room with
  | done => exact ⟨hs, List.Subset.refl _⟩
  | define hname hread hnew hrest ih =>
      obtain ⟨next, hstep, hfollows, hsub⟩ := hs.define hroot hname hread hnew
      obtain ⟨hlast, hmore⟩ := ih (fun e hreach => hfirst e (reaches_cons.mpr (.inr (.inr hreach))))
        (Nat.le_trans (closedNames_le_of_subset _ hsub) hroom) hfollows
      rw [surveyAll, List.foldl_cons, hstep]
      exact ⟨hlast, List.Subset.trans hsub hmore⟩
  | splice hname htarget hclosed haccess hwell hinner hrest ihinner ihrest =>
      obtain ⟨next, hstep, hfollows, hsub⟩ := hs.splice htextual hname htarget
        (hfirst _ (.here List.mem_cons_self) hname) hclosed haccess hwell hinner hroom
        (ihinner fun e hled => hfirst e (.through List.mem_cons_self hname htarget haccess hled))
      obtain ⟨hlast, hmore⟩ := ihrest
        (fun e hreach => hfirst e (reaches_cons.mpr (.inr (.inr hreach))))
        (Nat.le_trans (closedNames_le_of_subset _ hsub) hroom) hfollows
      rw [surveyAll, List.foldl_cons, hstep]
      exact ⟨hlast, List.Subset.trans hsub hmore⟩
  | command hdefine hinclude hrest ih =>
      rw [surveyAll, List.foldl_cons, surveyExpression, if_neg hdefine, if_neg hinclude]
      exact ih (fun e hreach => hfirst e (reaches_cons.mpr (.inr (.inr hreach)))) hroom hs

end Following

/-! ## Documents and runs -/

section Start

variable {fs : FileSystem} {o : Options} {name : Text} {stream : Stream}

/-- The run of a script that opens registers what evaluating it registers, and finishes if that
    meets no error. -/
theorem Expander.finished_start_iff (haccess : fs.access name = .ok stream) :
    ((start fs o name).drain.2.2.status = .finished ↔ (evaluate fs o name).error = none) ∧
      (start fs o name).drain.2.2.templates = (evaluate fs o name).templates := by
  have hrunning : (start fs o name).status = .running := by rw [start_of_access haccess]
  obtain ⟨-, herror, htemplates⟩ := drain_eq_outlook (ready_start (o := o) haccess) hrunning
  rw [finished_iff_error_eq_none, herror, htemplates, outlook_start haccess]
  exact ⟨Iff.rfl, rfl⟩

/-- If it meets no error, it comes to what the script leads to. -/
theorem Expander.tokenises_start_iff {e : Expanded} (haccess : fs.access name = .ok stream)
    (herror : (evaluate fs o name).error = none) :
    (start fs o name).Tokenises e ↔ Reaches fs o name (readAll stream).1 e := by
  rw [← outlook_start haccess] at herror
  rw [tokenises_iff_ahead ⟨ready_start haccess, herror⟩, start_of_access haccess]
  show Ahead fs o [⟨name, .ofStream stream⟩] e ↔ _
  rw [ahead_cons, Reader.rest_ofStream]
  simp [Ahead]

end Start

/-- A document and its run agree on what is defined. If the run of a stored script ends without an
    error, and no `include` that it comes to has a blank first line, then the document and the
    templates that are registered in the end have the same names, and under each name the same
    parameters, text, file and line. -/
theorem Document.entry_definition?_of_finished (files : List (Text × Bytes)) (o : Options)
    (name text : Text) (hroot : o.root = [])
    (hentry : (FileSystem.ofContents files).access name = .ok (.ofBytes (encodeUtf8 text) none))
    (hfinished : (Expander.start (.ofContents files) o name).drain.2.2.status = .finished)
    (hfirst : ∀ e, (Expander.start (.ofContents files) o name).Tokenises e →
      e.name = includeWord → ∃ c ∈ (Text.cutLine e.body).1, isBlank c = false) (n : Text) :
    ((Document.ofText (.ofContents files) o name text).definition? n).map Definition.entry =
      ((Expander.start (.ofContents files) o name).drain.2.2.templates.get? n).map
        Template.entry := by
  obtain ⟨hends, htemplates⟩ := Expander.finished_start_iff (o := o) hentry
  have herror := hends.mp hfinished
  have hreached : ∀ e, Reaches (.ofContents files) o name
      (readAll (.ofBytes (encodeUtf8 text) none)).1 e → e.name = includeWord →
      ∃ c ∈ (Text.cutLine e.body).1, isBlank c = false :=
    fun e hreach => hfirst e ((Expander.tokenises_start_iff hentry herror).mpr hreach)
  rw [evaluate, hentry] at herror htemplates
  obtain ⟨-, hregisters⟩ := registers_of_evalExpressions herror
  -- the survey starts in the script, which is open and the only file seen
  have hstart : Follows (.ofContents files) o [name] { seen := [name] } {} :=
    ⟨rfl, fun f hf => .inl hf⟩
  have hroom : closedNames (.ofContents files) [name] ≤
      (FileSystem.ofContents files).names.length := List.countP_le_length
  obtain ⟨hfollows, -⟩ :=
    hregisters.follows (FileSystem.textual_ofContents files) hroot hreached hroom hstart
  have hfound : (Document.ofText (.ofContents files) o name text).found =
      (surveyAll (.ofContents files) o (FileSystem.ofContents files).names.length name
        (readAll (.ofBytes (encodeUtf8 text) none)).1 { seen := [name] }).definitions := by
    show (survey (.ofContents files) o name text).definitions = _
    rw [survey, visitFile_of_unseen _ _ _ _ _ rfl, Stream.ofBytes_encodeUtf8]
  rw [htemplates, Document.definition?, hfound]
  exact entry_find? hfollows.found n

/-- The document of a script that splices the file of its only definition shows it. -/
theorem Document.entry_definition?_spliced :
    ((Document.ofText (.ofContents [(['m'], encodeUtf8 "include b\n".toList),
        (['b'], encodeUtf8 "define a x\n\tsay\n".toList)]) { extension := none } ['m']
        "include b\n".toList).definition? ['a']).map Definition.entry =
      some (['a'], [['x']], "say\n".toList, ['b'], 1) := by
  have hscript : readAll (.ofBytes (encodeUtf8 "include b\n".toList) none) =
      ([⟨1, [], includeWord, ['b']⟩], none) := by decide +kernel
  have hlibrary : readAll (.ofBytes (encodeUtf8 "define a x\n\tsay\n".toList) none) =
      ([⟨1, [], defineWord, "a x\nsay".toList⟩], none) := by decide +kernel
  have hfields : splitArguments none ['b'] = [['b']] := by decide +kernel
  have htarget : includeTarget { extension := none } ['b'] = .ok ['b'] := by
    rw [includeTarget, Arguments.ofBody, hfields]
    rfl
  generalize hfiles : [(['m'], encodeUtf8 "include b\n".toList),
    (['b'], encodeUtf8 "define a x\n\tsay\n".toList)] = files
  have hm : (FileSystem.ofContents files).access ['m'] =
      .ok (.ofBytes (encodeUtf8 "include b\n".toList) none) := by rw [← hfiles]; rfl
  have hb : (FileSystem.ofContents files).access ['b'] =
      .ok (.ofBytes (encodeUtf8 "define a x\n\tsay\n".toList) none) := by rw [← hfiles]; rfl
  have heval : evaluate (.ofContents files) { extension := none } ['m'] =
      .give ⟨[⟨['a'], [['x']], "say\n".toList,
        ⟨⟨1, [], defineWord, "a x\nsay".toList⟩, ['b'], []⟩⟩]⟩ [] := by
    rw [evaluate, hm]
    simp only [hscript]
    rw [evalExpressions, evalExpression_opened rfl htarget rfl hb, hlibrary]
    simp only
    rw [evalExpressions, evalExpression_define rfl rfl rfl, Evaluation.give_andThen,
      evalExpressions, Evaluation.after_nil, Evaluation.give_andThen, evalExpressions]
    rfl
  have herror : (evaluate (.ofContents files) { extension := none } ['m']).error = none := by
    rw [heval]; rfl
  have hfinished := Expander.finished_start_iff (o := { extension := none }) hm
  rw [Document.entry_definition?_of_finished files _ ['m'] _ rfl hm (hfinished.1.mpr herror) ?_,
    hfinished.2, heval]
  · rfl
  intro e hcomes hname
  rw [Expander.tokenises_start_iff hm herror, hscript] at hcomes
  rcases reaches_cons.mp hcomes with rfl | ⟨target, stream, -, htarget', haccess, hled⟩ | hlater
  · exact ⟨'b', by decide, by decide⟩
  · obtain rfl := Except.ok.inj (htarget.symm.trans htarget')
    obtain rfl := Except.ok.inj (hb.symm.trans haccess)
    rw [hlibrary] at hled
    rcases reaches_cons.mp hled with rfl | ⟨_, _, hdefine, -⟩ | hlater
    · exact absurd hname defineWord_ne_includeWord
    · exact absurd hdefine defineWord_ne_includeWord
    · exact absurd hlater not_reaches_nil
  · exact absurd hlater not_reaches_nil

end LineScript
