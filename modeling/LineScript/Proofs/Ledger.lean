import LineScript.Proofs.Chains
import LineScript.Proofs.Rereading
import Mathlib.Data.List.Nodup

/-!
# The templates of a run

Templates are entered by the definitions that stand in files, and by nothing else. This file keeps
a journal of a run, the expressions of files that it has carried out, and shows that the registry
is what the definitions in the journal make of it: every one of them has entered its template,
behind those before it, and no template was ever changed or taken back.

* `Registry.enter`: what an expression of a file does to the templates.
* `carriedOut` and `journal`: the expressions that a run carries out without an error, while it
  looks for a result and while its user does one thing after another.
* `journal_enters`: entering the journal gives the templates of the run.
* `Visits.readAt`: all that a run comes to was read off a file.
-/

namespace LineScript

/-! ## Entering templates -/

namespace Registry

/-- The templates after an expression of a file: a definition adds one, anything else leaves
    them. -/
def enter (reg : Registry) (e : Expanded) : Except Cause Registry :=
  if e.name = defineWord then Template.ofDefinition e >>= reg.define else .ok reg

variable {reg last : Registry} {e : Expanded} {es : List Expanded} {t : Template}

theorem enter_of_define (hname : e.name = defineWord) (hread : Template.ofDefinition e = .ok t)
    (hnew : reg.define t = .ok last) : reg.enter e = .ok last := by
  rw [enter, if_pos hname, hread]
  exact hnew

theorem enter_of_ne (hname : e.name ≠ defineWord) : reg.enter e = .ok reg := if_neg hname

/-- An expression that is entered is a definition whose template is new, or changes nothing. -/
theorem enter_eq_ok (h : reg.enter e = .ok last) :
    (e.name = defineWord ∧ ∃ t, Template.ofDefinition e = .ok t ∧ reg.define t = .ok last) ∨
      (e.name ≠ defineWord ∧ last = reg) := by
  by_cases hname : e.name = defineWord
  · rw [enter, if_pos hname] at h
    exact .inl ⟨hname, exists_of_bind_eq_ok h⟩
  · rw [enter_of_ne hname] at h
    exact .inr ⟨hname, (Except.ok.inj h).symm⟩

/-- Entering expressions one after another adds the templates of the definitions among them, in
    order, and changes nothing else. -/
theorem enter_all (h : es.foldlM enter reg = .ok last) :
    ∃ ts, last.templates = reg.templates ++ ts ∧
      (es.filter (·.name = defineWord)).map Template.ofDefinition = ts.map .ok := by
  induction es generalizing reg with
  | nil =>
      obtain rfl : reg = last := Except.ok.inj h
      exact ⟨[], (List.append_nil _).symm, rfl⟩
  | cons e es ih =>
      rw [List.foldlM_cons] at h
      obtain ⟨mid, hfirst, hrest⟩ := exists_of_bind_eq_ok h
      obtain ⟨ts, hts, hmap⟩ := ih hrest
      rcases enter_eq_ok hfirst with ⟨hname, t, hread, hnew⟩ | ⟨hname, rfl⟩
      · obtain ⟨-, rfl⟩ := define_eq_ok_iff.mp hnew
        refine ⟨t :: ts, ?_, ?_⟩
        · rw [hts, List.append_assoc]
          rfl
        · rw [List.filter_cons_of_pos (by simpa using hname), List.map_cons, hread, hmap]
          rfl
      · refine ⟨ts, hts, ?_⟩
        rw [List.filter_cons_of_neg (by simpa using hname), hmap]

/-- A template that is registered stays when others are added behind it. -/
theorem get?_of_append {ts : List Template} (h : last.templates = reg.templates ++ ts)
    {name : Text} (hget : reg.get? name = some t) : last.get? name = some t := by
  rw [get?] at hget ⊢
  rw [h, List.find?_append, hget]
  rfl

theorem Sound.enter (h : reg.Sound) (henter : reg.enter e = .ok last) : last.Sound := by
  rcases enter_eq_ok henter with ⟨-, t, hread, hnew⟩ | ⟨-, rfl⟩
  · exact h.define hread hnew
  · exact h

/-- A template that is registered is found under its name. -/
theorem Sound.get?_of_mem (h : reg.Sound) (ht : t ∈ reg.templates) :
    reg.get? t.name = some t := by
  cases hget : reg.get? t.name with
  | none =>
      have hother := List.find?_eq_none.mp hget t ht
      simp at hother
  | some u =>
      have hu : u ∈ reg.templates := List.mem_of_find?_eq_some hget
      have hname : u.name = t.name := by simpa using List.find?_some hget
      rw [List.inj_on_of_nodup_map h.distinct hu ht hname]

end Registry

namespace Expander

/-! ## What is carried out -/

section Effects

variable {x y : Expander} {e : Expanded}

/-- What is carried out without an error is entered. -/
theorem Effect.enter {results : List Expanded} (h : x.Effect e (.ok results) y) :
    x.templates.enter e = .ok y.templates := by
  cases h with
  | registered hname hread hnew => exact Registry.enter_of_define hname hread hnew
  | opened hname => exact Registry.enter_of_ne (hname ▸ defineWord_ne_includeWord.symm)
  | expanded hdefine => exact Registry.enter_of_ne hdefine

/-- An expression that fails leaves the templates alone. -/
theorem Effect.templates_of_error {error : ExpansionError} (h : x.Effect e (.error error) y) :
    y.templates = x.templates := by
  cases h <;> rfl

/-- So does one that is no definition. -/
theorem Effect.templates_of_ne {result : Except ExpansionError (List Expanded)}
    (h : x.Effect e result y) (hname : e.name ≠ defineWord) : y.templates = x.templates := by
  cases h with
  | registered hdefine => exact absurd hdefine hname
  | _ => rfl

/-- A definition that fails changes nothing. -/
theorem Effect.eq_of_misdefined {error : ExpansionError} (h : x.Effect e (.error error) y)
    (hname : e.name = defineWord) : y = x := by
  cases h with
  | misdefined => rfl
  | untargeted hinclude => exact absurd (hname.symm.trans hinclude) defineWord_ne_includeWord
  | cyclic hinclude => exact absurd (hname.symm.trans hinclude) defineWord_ne_includeWord
  | unopened hinclude => exact absurd (hname.symm.trans hinclude) defineWord_ne_includeWord
  | expanded hdefine => exact absurd hname hdefine

end Effects

/-- The expressions of files that looking for the next result carries out without an error. -/
def carriedOut (x : Expander) : List Expanded :=
  match x.pending with
  | _ :: _ => []
  | [] =>
      match _hfiles : x.files with
      | [] => []
      | frame :: outer =>
          match _hread : frame.reader.read with
          | (.error _, _) => []
          | (.ok none, _) => carriedOut { x with files := outer, includes := x.includes.pop }
          | (.ok (some raw), reader) =>
              let e := Expanded.ofExpression raw (x.options.displayPath frame.name)
              match _hexec : execute { x with files := { frame with reader } :: outer } e with
              | (.error _, _) => []
              | (.ok results, y) => e :: carriedOut { y with pending := results }
termination_by x.work
decreasing_by
  · simp only [work, _hfiles, filesWork, IncludeStack.pop]
    omega
  · have hlt := work_execute_lt _hfiles _hread _hexec
    exact hlt

/-- The expressions that one action carries out: those of the search for the next result, if the
    run goes on. -/
def Action.carriedOut (x : Expander) : Action → List Expanded
  | .read => if x.status = .running then x.carriedOut else []
  | .next => if x.status = .running ∧ x.reported = false then x.carriedOut else []
  | .setRoot _ => []
  | .setExtension _ => []

/-- The expressions of files that a run carries out while its user does one thing after another. -/
def journal (x : Expander) : List Action → List Expanded
  | [] => []
  | action :: actions => action.carriedOut x ++ journal (action.apply x) actions

/-! ## Entering the journal -/

/-- Looking for the next result enters what it carries out. -/
theorem carriedOut_enters (x : Expander) :
    x.carriedOut.foldlM Registry.enter x.templates = .ok x.advance.2.templates := by
  fun_induction carriedOut x with
  | case1 x e pending hpending =>
      rw [advance_handOut hpending]
      rfl
  | case2 x hpending hfiles =>
      rw [advance_finish hpending hfiles]
      rfl
  | case3 x hpending frame outer hfiles error reader hread =>
      rw [advance_read hpending hfiles, hread]
      rfl
  | case4 x hpending frame outer hfiles reader hread ih =>
      rw [advance_read hpending hfiles, hread]
      exact ih
  | case5 x hpending frame outer hfiles raw reader hread e error y hexec =>
      rw [advance_read hpending hfiles, hread]
      simp only [e] at hexec
      simp only [hexec]
      exact congrArg Except.ok (effect_of_execute hexec).templates_of_error.symm
  | case6 x hpending frame outer hfiles raw reader hread e results y hexec ih =>
      rw [advance_read hpending hfiles, hread]
      simp only [e] at hexec
      have henter := (effect_of_execute hexec).enter
      simp only [hexec]
      rw [List.foldlM_cons, henter]
      exact ih

/-- So does handing it out. -/
theorem read_enters (x : Expander) :
    (Action.carriedOut x .read).foldlM Registry.enter x.templates = .ok x.read.2.templates := by
  have hadvance := carriedOut_enters x
  rw [Action.carriedOut]
  cases hstatus : x.status with
  | running =>
      rw [if_pos rfl, hadvance, read, hstatus]
      rcases x.advance with ⟨error | _ | e, y⟩
      · rfl
      · rfl
      · rfl
  | poisoned error =>
      rw [if_neg (by simp), read, hstatus]
      rfl
  | finished =>
      rw [if_neg (by simp), read, hstatus]
      rfl

/-- So does every action. -/
theorem apply_enters (x : Expander) (action : Action) :
    (action.carriedOut x).foldlM Registry.enter x.templates = .ok (action.apply x).templates := by
  cases action with
  | read => exact read_enters x
  | next =>
      have hread := read_enters x
      simp only [Action.carriedOut, Action.apply, next] at hread ⊢
      cases hreported : x.reported with
      | true =>
          rw [if_neg (by simp), if_pos rfl]
          rfl
      | false =>
          simp only [and_true, Bool.false_eq_true, if_false]
          rw [hread]
          rcases x.read with ⟨error | _ | e, y⟩
          · rfl
          · rfl
          · rfl
  | setRoot root => rfl
  | setExtension extension => rfl

/-- Entering the journal gives the templates of the run. -/
theorem journal_enters (x : Expander) (actions : List Action) :
    (x.journal actions).foldlM Registry.enter x.templates = .ok (x.perform actions).templates := by
  induction actions generalizing x with
  | nil => rfl
  | cons action actions ih =>
      rw [journal, List.foldlM_append, apply_enters]
      exact ih (action.apply x)

/-! ## The journal is read off files -/

/-- The run from `x₀` on comes to the expression `e`: it is that of line `line` in a file that is
    shown as `file` at that moment. -/
def ReadAt (x₀ : Expander) (file : Text) (line : Nat) (e : Expanded) : Prop :=
  ∃ x name stream raw, Visits x₀ x ∧ x.Faces e ∧ x₀.fs.access name = .ok stream ∧
    raw ∈ (readAll stream).1 ∧ file = x.options.displayPath name ∧ line = raw.line ∧
    e = .ofExpression raw file

section Journal

variable {x₀ x : Expander} {e : Expanded}

/-- A run comes to what it carries out. -/
theorem Visits.faces_of_carriedOut (h : Visits x₀ x) (hrunning : x.status = .running)
    (he : e ∈ x.carriedOut) : ∃ z, Visits x₀ z ∧ z.Faces e := by
  fun_induction carriedOut x with
  | case1 => cases he
  | case2 => cases he
  | case3 => cases he
  | case4 x hpending frame outer hfiles reader hread ih =>
      exact ih (h.turn hrunning (.leave hpending hfiles hread)) hrunning he
  | case5 => cases he
  | case6 x hpending frame outer hfiles raw reader hread e' results y hexec ih =>
      rcases List.mem_cons.mp he with rfl | he
      · exact ⟨x, h, frame, outer, raw, reader, hrunning, hpending, hfiles, hread, rfl⟩
      · have hturn := Turn.carryOut hpending hfiles hread hexec
        exact ih (h.turn hrunning hturn) (hturn.status.trans hrunning) he

theorem Visits.faces_of_action {action : Action} (h : Visits x₀ x)
    (he : e ∈ action.carriedOut x) : ∃ z, Visits x₀ z ∧ z.Faces e := by
  cases action with
  | read =>
      rw [Action.carriedOut] at he
      split at he
      · rename_i hrunning
        exact h.faces_of_carriedOut hrunning he
      · cases he
  | next =>
      rw [Action.carriedOut] at he
      split at he
      · rename_i hgoes
        exact h.faces_of_carriedOut hgoes.1 he
      · cases he
  | setRoot root => cases he
  | setExtension extension => cases he

/-- So it does with all of its journal. -/
theorem Visits.faces_of_journal {actions : List Action} (h : Visits x₀ x)
    (he : e ∈ x.journal actions) : ∃ z, Visits x₀ z ∧ z.Faces e := by
  induction actions generalizing x with
  | nil => cases he
  | cons action actions ih =>
      rcases List.mem_append.mp he with he | he
      · exact h.faces_of_action he
      · exact ih (h.apply action) he

/-- What a run comes to is an expression of a file. -/
theorem Visits.readAt (horderly : x₀.Orderly) (hfaithful : Faithful x₀ x₀) (h : Visits x₀ x)
    (hfaces : x.Faces e) : ReadAt x₀ e.file e.line e := by
  obtain ⟨frame, outer, raw, reader, hrunning, -, hfiles, hread, rfl⟩ := id hfaces
  have hframe := (h.faithful horderly hfaithful).files hrunning frame
    (hfiles ▸ List.mem_cons_self)
  obtain ⟨stream, haccess, hraw⟩ := hframe.mem hread
  exact ⟨x, frame.name, stream, raw, h, hfaces, haccess, hraw, rfl, rfl, rfl⟩

end Journal

/-! ## Whole runs -/

theorem templates_start (fs : FileSystem) (o : Options) (script : Text) :
    (start fs o script).templates = {} := by
  rw [start]
  cases fs.access script <;> rfl

/-- In every state of a run no name is registered twice. -/
theorem Visits.sound {x₀ x : Expander} (hstart : x₀.templates.Sound) (h : Visits x₀ x) :
    x.templates.Sound := by
  induction h with
  | start => exact hstart
  | turn h hrunning hturn ih =>
      cases hturn with
      | handOut => exact ih
      | leave => exact ih
      | carryOut hpending hfiles hread hexec => exact ih.enter (effect_of_execute hexec).enter
  | finish h hrunning hpending hfiles ih => exact ih
  | malformed h hrunning hpending hfiles hread ih => exact ih
  | @fail x y frame outer raw reader error h hrunning hpending hfiles hread hexec ih =>
      have hsame : y.templates = x.templates := (effect_of_execute hexec).templates_of_error
      show y.templates.Sound
      rw [hsame]
      exact ih
  | report h hstatus ih => exact ih
  | settings h options ih => exact ih

theorem sound_start (fs : FileSystem) (o : Options) (script : Text) :
    (start fs o script).templates.Sound := by
  rw [templates_start]
  exact ⟨.nil, fun t ht => absurd ht List.not_mem_nil⟩

/-- The templates of a run are those of the definitions in its journal. -/
theorem templates_eq_journal (fs : FileSystem) (o : Options) (script : Text)
    (actions : List Action) :
    ((start fs o script).perform actions).templates.templates.map .ok =
      (((start fs o script).journal actions).filter (·.name = defineWord)).map
        Template.ofDefinition := by
  obtain ⟨ts, hts, hmap⟩ := Registry.enter_all (journal_enters (start fs o script) actions)
  rw [hmap, hts, templates_start]
  rfl

section Starting

variable {fs : FileSystem} {o : Options} {script : Text} {actions : List Action}

/-- The source of a template is the definition in the journal that it was read off. -/
theorem source_of_mem_templates {t : Template}
    (ht : t ∈ ((start fs o script).perform actions).templates.templates) :
    t.source ∈ (start fs o script).journal actions ∧ t.source.name = defineWord ∧
      Template.ofDefinition t.source = .ok t := by
  have hmem : (.ok t : Except Cause Template) ∈
      ((start fs o script).perform actions).templates.templates.map .ok := List.mem_map_of_mem ht
  rw [templates_eq_journal] at hmem
  obtain ⟨decl, hdecl, hread⟩ := List.mem_map.mp hmem
  obtain ⟨hcarried, hname⟩ := List.mem_filter.mp hdecl
  obtain rfl := Template.source_of_ofDefinition hread
  exact ⟨hcarried, by simpa using hname, hread⟩

/-- All that the journal of a run holds was read off files. -/
theorem readAt_of_journal {e : Expanded} (he : e ∈ (start fs o script).journal actions) :
    ReadAt (start fs o script) e.file e.line e := by
  obtain ⟨z, hz, hfaces⟩ := Visits.start.faces_of_journal he
  exact hz.readAt (orderly_start fs o script) (faithful_start fs o script) hfaces

end Starting

/-- The templates of a run are a ledger. For every file system, setting and script, after any
    actions of the user: a template that is registered stays as it is, whatever the user does
    next. A definition that fails changes nothing, and what is no definition changes no template;
    nor does a call, as no command that is met inside one is a definition. Every template is found
    under its name, which is not empty and has no white space and no control character; no parameter
    is empty or has white space; the text is empty or ends with a line feed; and the template is
    what is read off its source, a definition outside every call that the run came to in the file
    and at the line that the template reports. The templates are, in order, those of the definitions
    that the run has carried out, and all that it has carried out was read off files. -/
theorem perform_templates (fs : FileSystem) (o : Options) (script : Text)
    (actions more : List Action) :
    let x₀ := start fs o script
    let x := x₀.perform actions
    (∀ name t, x.templates.get? name = some t →
      (x.perform more).templates.get? name = some t) ∧
    (∀ (z y : Expander) e error, e.name = defineWord → z.execute e = (.error error, y) → y = z) ∧
    (∀ (z : Expander) e, e.name ≠ defineWord → (z.execute e).2.templates = z.templates) ∧
    (∀ f calls e, Meets x.templates f calls e → calls.frames ≠ [] → e.name ≠ defineWord) ∧
    (∀ t ∈ x.templates.templates, x.templates.get? t.name = some t ∧
      t.name ≠ [] ∧ (∀ c ∈ t.name, isBlank c = false ∧ isControl c = false) ∧
      (∀ p ∈ t.params, p ≠ [] ∧ ∀ c ∈ p, isBlank c = false) ∧
      (t.body = [] ∨ t.body.getLast? = some '\n') ∧
      t.source.name = defineWord ∧ t.source.stack = [] ∧ ReadAt x₀ t.file t.line t.source ∧
      Template.ofDefinition t.source = .ok t) ∧
    x.templates.templates.map .ok =
      ((x₀.journal actions).filter (·.name = defineWord)).map Template.ofDefinition ∧
    ∀ e ∈ x₀.journal actions, ReadAt x₀ e.file e.line e := by
  intro x₀ x
  have hvisits : Visits x₀ x := visits_perform x₀ actions
  have hentered := templates_eq_journal fs o script actions
  have hjournal := fun e (he : e ∈ x₀.journal actions) => readAt_of_journal he
  refine ⟨?_, ?_, ?_, fun f calls e hmeets => hmeets.name_ne_defineWord, ?_, hentered, hjournal⟩
  · intro name t hget
    obtain ⟨ts, hts, -⟩ := Registry.enter_all (journal_enters x more)
    exact Registry.get?_of_append hts hget
  · intro z y e error hname hexec
    exact (effect_of_execute hexec).eq_of_misdefined hname
  · intro z e hname
    exact (effect_execute z e).templates_of_ne hname
  · intro t ht
    obtain ⟨hcarried, hname, hread⟩ := source_of_mem_templates ht
    obtain ⟨hreadable, hcontrol⟩ := readable_of_ofDefinition hread
    have hat := hjournal t.source hcarried
    have hstack : t.source.stack = [] := by
      obtain ⟨-, -, -, raw, -, -, -, -, -, -, hraw⟩ := hat
      rw [hraw]
      rfl
    exact ⟨(hvisits.sound (sound_start fs o script)).get?_of_mem ht, hreadable.named,
      fun c hc => ⟨hreadable.solid c hc, hcontrol c hc⟩, hreadable.params, hreadable.closed,
      hname, hstack, hat, hread⟩

end Expander

end LineScript
