import LineScript.Proofs.Orderly
import LineScript.Proofs.Refinement

/-!
# Chains of calls

Every result carries the calls that led to it, and every call carries the calls above it. These
chains are put on in several places while results come back through the calls they are made in.
This file shows that they tell the truth: whatever a run hands out, its chain starts at a command
of a file and each expression stands in the text of the template that the call above it names.

* `Truthful`: what a chain says, stated by position. `Truthful.inside` goes one call deeper.
* `Truthful.evalCommand`: what a command stands for has such a chain, and so has what an error
  about a call points at.
* `perform_read_truthful`: the same for whatever a user gets from a run.
-/

namespace LineScript

/-! ## Chains -/

/-- The expression `e` stands in the text of the template that `caller` calls. -/
def Expanded.StandsIn (reg : Registry) (e caller : Expanded) : Prop :=
  ∃ t, reg.callee? caller.name = some t ∧ e.file = t.file ∧
    ∃ line ∈ (readAll (Stream.ofText t.body)).1, e.line = line.line

/-- The chain of calls of the expression `e` says how the command `f` of a file led to it. -/
structure Truthful (reg : Registry) (f e : Expanded) : Prop where
  /-- No template is called inside itself. -/
  distinct : (e.stack.map (·.name)).Nodup
  /-- Every call is one of a template with text. -/
  registered : ∀ frame ∈ e.stack, ∃ t, reg.get? frame.name = some t ∧ t.body ≠ []
  /-- The chain of a call is the part of the chain above it. -/
  nested : ∀ (i : Nat) (frame : Expanded), e.stack[i]? = some frame →
    frame.stack = e.stack.take i
  /-- Only the command of the file is outside every call. -/
  direct : e.stack = [] ↔ e = f
  /-- The outermost call is the command of the file. -/
  outermost : ∀ frame, e.stack.head? = some frame → frame = f
  /-- The expression stands in the text of the innermost call. -/
  innermost : ∀ caller, e.stack.getLast? = some caller → e.StandsIn reg caller
  /-- Every other call stands in the text of the call above it. -/
  linked : ∀ (i : Nat) (caller frame : Expanded), e.stack[i]? = some caller →
    e.stack[i + 1]? = some frame → frame.StandsIn reg caller

section Chains

variable {reg : Registry} {f e site : Expanded} {t : Template}

/-- The command of a file is outside every call. -/
theorem Truthful.here (hfile : f.stack = []) : Truthful reg f { f with stack := [] } := by
  have hself : { f with stack := [] } = f := by
    cases f
    cases hfile
    rfl
  constructor
  case direct => exact ⟨fun _ => hself, fun _ => rfl⟩
  case distinct => exact .nil
  all_goals simp

/-- A template is registered if it can be called. -/
theorem Registry.get?_of_callee? {name : Text} (h : reg.callee? name = some t) :
    reg.get? name = some t ∧ t.body ≠ [] :=
  ⟨(Option.filter_eq_some_iff.mp h).1, (Registry.callee?_eq_some h).2.2⟩

/-- A chain may be prolonged by a call of a template that it does not name. -/
theorem Truthful.inside (hfile : f.stack = []) (h : Truthful reg f site)
    (hnew : site.name ∉ site.stack.map (·.name)) (hstack : e.stack = site.stack ++ [site])
    (hstands : e.StandsIn reg site) : Truthful reg f e := by
  have hne : e.stack ≠ [] := by
    simp [hstack]
  constructor
  case distinct =>
    rw [hstack]
    exact nodup_names_append h.distinct hnew
  case registered =>
    intro frame hframe
    rw [hstack, List.mem_append, List.mem_singleton] at hframe
    rcases hframe with hframe | rfl
    · exact h.registered frame hframe
    · obtain ⟨t, hcallee, -⟩ := hstands
      exact ⟨t, Registry.get?_of_callee? hcallee⟩
  case nested =>
    intro i frame hi
    rw [hstack] at hi ⊢
    rcases Nat.lt_or_ge i site.stack.length with hlt | hge
    · rw [List.getElem?_append_left hlt] at hi
      rw [List.take_append_of_le_length (Nat.le_of_lt hlt)]
      exact h.nested i frame hi
    · -- the new call is the last one
      rw [List.getElem?_append_right hge, List.getElem?_singleton] at hi
      split at hi
      · obtain rfl := Option.some.inj hi
        obtain rfl : i = site.stack.length := by omega
        rw [List.take_left]
      · cases hi
  case direct =>
    refine ⟨fun hnil => absurd hnil hne, ?_⟩
    rintro rfl
    exact hfile
  case outermost =>
    intro frame hframe
    rw [hstack] at hframe
    by_cases hsite : site.stack = []
    · rw [hsite] at hframe
      obtain rfl : site = frame := Option.some.inj hframe
      exact h.direct.mp hsite
    · obtain ⟨first, rest, hcons⟩ := List.exists_cons_of_ne_nil hsite
      rw [hcons] at hframe
      exact h.outermost frame (by rw [hcons]; exact hframe)
  case innermost =>
    intro caller hcaller
    rw [hstack, List.getLast?_concat] at hcaller
    exact Option.some.inj hcaller ▸ hstands
  case linked =>
    intro i caller frame hcaller hframe
    rw [hstack] at hcaller hframe
    rcases Nat.lt_or_ge (i + 1) site.stack.length with hlt | hge
    · rw [List.getElem?_append_left (by omega)] at hcaller hframe
      exact h.linked i caller frame hcaller hframe
    · -- the new call stands in what was the innermost one before it
      rw [List.getElem?_append_right hge, List.getElem?_singleton] at hframe
      split at hframe
      · obtain rfl := Option.some.inj hframe
        obtain hlast : i = site.stack.length - 1 := by omega
        rw [List.getElem?_append_left (by omega), hlast, ← List.getLast?_eq_getElem?] at hcaller
        exact h.innermost caller hcaller
      · cases hframe

end Chains

/-! ## What a command stands for -/

/-- The template whose call an error is about. -/
def Cause.called? : Cause → Option Text
  | .argumentCount name _ _ => some name
  | .nestedDefine template _ => some template
  | .recursion name _ => some name
  | _ => none

/-- An error about a call points at the call, of which `P` holds; the template of a recursion is
    among the calls above it. -/
def Blames (P : Expanded → Prop) (error : ExpansionError) : Prop :=
  ∀ name, error.cause.called? = some name → error.expr.name = name ∧
    (∀ trace, error.cause = .recursion name trace → name ∈ error.expr.stack.map (·.name)) ∧
    P error.expr

section Commands

variable {reg : Registry} {f e site : Expanded} {t : Template} {frames : List Expanded}

/-- An error that is not about a call points at none. -/
theorem Blames.of_none {P : Expanded → Prop} {error : ExpansionError}
    (h : error.cause.called? = none) : Blames P error := by
  intro name hname
  rw [h] at hname
  cases hname

theorem Blames.of_some {P : Expanded → Prop} {error : ExpansionError} {name : Text}
    (hcalled : error.cause.called? = some name) (hname : error.expr.name = name)
    (hrecursion : ∀ trace, error.cause = .recursion name trace →
      name ∈ error.expr.stack.map (·.name))
    (h : P error.expr) : Blames P error := by
  intro name' hcalled'
  obtain rfl := Option.some.inj (hcalled.symm.trans hcalled')
  exact ⟨hname, hrecursion, h⟩

/-- Every error of a text but that of a recursion points at the call, or is not about it. -/
theorem TextError.blames {error : ExpansionError} (herror : TextError t site error)
    (h : Truthful reg f site) (hname : site.name = t.name) : Blames (Truthful reg f) error := by
  cases herror with
  | arguments => exact .of_some rfl hname (fun _ htrace => Cause.noConfusion htrace) h
  | parameter => exact .of_none rfl
  | definition => exact .of_some rfl hname (fun _ htrace => Cause.noConfusion htrace) h
  | malformed => exact .of_none rfl

/-- What a command stands for has truthful chains if the command has one. -/
theorem Truthful.evalCommand (hfile : f.stack = [])
    (h : Truthful reg f { e with stack := frames }) :
    Settles (fun results => ∀ r ∈ results, Truthful reg f r) (Blames (Truthful reg f))
      (evalCommand reg frames e) := by
  induction frames, e using evalCommand_induction reg with
  | self frames e hself =>
      rw [evalCommand_self hself]
      intro r hr
      exact List.mem_singleton.mp hr ▸ h
  | active frames e t hname hcallee hactive =>
      obtain ⟨-, hsame, -⟩ := Registry.callee?_eq_some hcallee
      have hamong : t.name ∈ frames.map (·.name) := by
        rw [hsame]
        simpa [activeNames] using hactive
      rw [evalCommand_active hname hcallee hactive]
      exact .of_some rfl hsame.symm (fun _ _ => hamong) h
  | call frames e t hname hcallee hidle ih =>
      obtain ⟨-, hsame, -⟩ := Registry.callee?_eq_some hcallee
      have hnew : e.name ∉ frames.map (·.name) := by
        simpa [activeNames] using hidle
      refine settles_evalCommand_call hname hcallee hidle
        (fun error herror => herror.blames h hsame.symm) fun args line e' hline hinstance => ?_
      obtain ⟨name, body, -, -, -, rfl⟩ := instantiate_eq_ok hinstance
      exact ih _ (h.inside hfile hnew rfl ⟨t, hcallee, rfl, line, hline, rfl⟩)

end Commands

/-! ## Files -/

/-- The frame of a file reads what the file holds. -/
def FileFrame.Genuine (fs : FileSystem) (frame : FileFrame) : Prop :=
  frame.reader.failed = none ∧
    ∃ stream, fs.access frame.name = .ok stream ∧ frame.reader.rest.1 <:+ (readAll stream).1

theorem FileFrame.genuine_of_access {fs : FileSystem} {name : Text} {stream : Stream}
    (haccess : fs.access name = .ok stream) :
    FileFrame.Genuine fs ⟨name, .ofStream stream⟩ :=
  ⟨rfl, stream, haccess, List.suffix_refl _⟩

section Genuine

variable {fs : FileSystem} {frame : FileFrame} {raw : Expression} {reader : Reader}

/-- What is read off a file is an expression of the file. -/
theorem FileFrame.Genuine.mem (h : frame.Genuine fs)
    (hread : frame.reader.read = (.ok (some raw), reader)) :
    ∃ stream, fs.access frame.name = .ok stream ∧ raw ∈ (readAll stream).1 := by
  obtain ⟨hready, stream, haccess, hsuffix⟩ := h
  rw [Reader.rest_of_read_some hready hread] at hsuffix
  exact ⟨stream, haccess, hsuffix.mem List.mem_cons_self⟩

theorem FileFrame.Genuine.readOn (h : frame.Genuine fs)
    (hread : frame.reader.read = (.ok (some raw), reader)) :
    FileFrame.Genuine fs { frame with reader } := by
  obtain ⟨hready, stream, haccess, hsuffix⟩ := h
  rw [Reader.rest_of_read_some hready hread] at hsuffix
  exact ⟨Reader.ready_of_read_some hready hread, stream, haccess,
    (List.suffix_cons _ _).trans hsuffix⟩

end Genuine

/-! ## Runs -/

/-- Only an error of a call is about one. -/
theorem Cause.called?_eq_none {cause : Cause} (h : cause.family ≠ .invocation) :
    cause.called? = none := by
  cases cause with
  | argumentCount => exact absurd rfl h
  | nestedDefine => exact absurd rfl h
  | recursion => exact absurd rfl h
  | _ => rfl

/-- A definition that is refused is no matter of calls. -/
theorem settles_define (reg : Registry) (f : Expanded) :
    Settles (fun _ => True) (fun cause => cause.family = .definition)
      (Template.ofDefinition f >>= reg.define) := by
  have hread : Settles (fun _ => True) (fun cause => cause.family = .definition)
      (Template.ofDefinition f) := by
    simp only [Template.ofDefinition]
    split
    · rfl
    · split
      · rfl
      · trivial
  refine hread.bind fun t _ => ?_
  rw [Registry.define]
  split
  · rfl
  · trivial

/-- Nor is a splice that names no file as it should. -/
theorem settles_includeTarget (o : Options) (body : Text) :
    Settles (fun _ => True)
      (fun cause => cause.family = .splicing ∧ ∀ chain, cause ≠ .includeCycle chain)
      (includeTarget o body) := by
  simp only [includeTarget]
  split
  · exact ⟨rfl, fun _ h => Cause.noConfusion h⟩
  · split
    · exact ⟨rfl, fun _ h => Cause.noConfusion h⟩
    · split
      · exact ⟨rfl, fun _ h => Cause.noConfusion h⟩
      · trivial
  · exact ⟨rfl, fun _ h => Cause.noConfusion h⟩

namespace Expander

/-- The command `f` is one of a file, and the run from `x₀` on comes to it: it is an expression of
    the file, shown as the settings of that moment have it, and no directive. -/
def FileCommand (x₀ : Expander) (f : Expanded) : Prop :=
  f.name ≠ defineWord ∧ f.name ≠ includeWord ∧
    ∃ x name stream raw, Visits x₀ x ∧ x.Faces f ∧ x₀.fs.access name = .ok stream ∧
      raw ∈ (readAll stream).1 ∧ f = .ofExpression raw (x.options.displayPath name)

/-- The expression `e` comes from a command of a file, as its chain says. -/
def Attested (x₀ : Expander) (reg : Registry) (e : Expanded) : Prop :=
  ∃ f, FileCommand x₀ f ∧ Truthful reg f e

/-- What a run relies on and gives: its open files are read as they are, what waits is attested,
    and so is the call that an error is about. -/
structure Faithful (x₀ x : Expander) : Prop where
  fs : x.fs = x₀.fs
  files : x.status = .running → ∀ frame ∈ x.files, frame.Genuine x₀.fs
  waiting : ∀ e ∈ x.pending, Attested x₀ x.templates e
  poisoned : ∀ error, x.status = .poisoned error → Blames (Attested x₀ x.templates) error

section Turns

variable {x₀ x y : Expander} {frame : FileFrame} {outer : List FileFrame} {reader : Reader}
  {raw : Expression} {f : Expanded} {result : Except ExpansionError (List Expanded)}

/-- An expression that opens a file opens it at its start. -/
theorem Effect.genuine (h : x.Effect f result y) (hfiles : ∀ frame ∈ x.files, frame.Genuine x.fs) :
    ∀ frame ∈ y.files, frame.Genuine x.fs := by
  cases h with
  | opened hname htarget hclosed haccess =>
      intro frame hframe
      rcases List.mem_cons.mp hframe with rfl | hframe
      · exact FileFrame.genuine_of_access haccess
      · exact hfiles frame hframe
  | _ => exact hfiles

/-- Only commands give results and fail with an error about a call. -/
theorem Effect.attested (h : x.Effect f result y) (hcalls : x.calls = {}) (hfile : f.stack = [])
    (hcommand : f.name ≠ defineWord → f.name ≠ includeWord → FileCommand x₀ f) :
    Settles (fun results => ∀ e ∈ results, Attested x₀ y.templates e)
      (Blames (Attested x₀ y.templates)) result := by
  cases h with
  | registered hname hread hnew => exact fun e he => absurd he List.not_mem_nil
  | misdefined hname hfail =>
      have hcause := settles_define x.templates f
      rw [hfail] at hcause
      exact .of_none (Cause.called?_eq_none (by rw [show _ = _ from hcause]; decide))
  | opened hname htarget hclosed haccess => exact fun e he => absurd he List.not_mem_nil
  | untargeted hname htarget =>
      have hcause := settles_includeTarget x.options f.body
      rw [htarget] at hcause
      exact .of_none (Cause.called?_eq_none (by rw [hcause.1]; decide))
  | cyclic hname htarget hopen => exact .of_none rfl
  | unopened hname htarget hclosed haccess => exact .of_none rfl
  | expanded hdefine hinclude hexpand =>
      rw [hcalls, expandFileCommand_eq_evalCommand x.templates hfile] at hexpand
      obtain ⟨rfl, rfl⟩ := Prod.mk.inj hexpand
      have hf := hcommand hdefine hinclude
      refine (Truthful.evalCommand hfile (.here hfile)).mono ?_ ?_
      · intro results hresults e he
        exact ⟨f, hf, hresults e he⟩
      · intro error hblames name hcalled
        obtain ⟨hname, hrecursion, htruthful⟩ := hblames name hcalled
        exact ⟨hname, hrecursion, f, hf, htruthful⟩

/-- What carrying out an expression of the innermost file leaves and gives. -/
theorem Faithful.execute (h : Faithful x₀ x) (hvisits : Visits x₀ x) (hcalls : x.calls = {})
    (hrunning : x.status = .running) (hpending : x.pending = [])
    (hfiles : x.files = frame :: outer) (hread : frame.reader.read = (.ok (some raw), reader))
    (hexec : execute { x with files := { frame with reader } :: outer }
      (.ofExpression raw (x.options.displayPath frame.name)) = (result, y)) :
    y.fs = x₀.fs ∧ (∀ frame ∈ y.files, frame.Genuine x₀.fs) ∧
      Settles (fun results => ∀ e ∈ results, Attested x₀ y.templates e)
        (Blames (Attested x₀ y.templates)) result := by
  have heffect := effect_of_execute hexec
  have hopen := h.files hrunning
  rw [hfiles] at hopen
  have hframe := hopen frame List.mem_cons_self
  refine ⟨heffect.unchanged.1.trans h.fs, ?_, heffect.attested hcalls rfl ?_⟩
  · have hgenuine := heffect.genuine
    simp only [h.fs] at hgenuine
    refine hgenuine fun frame' hframe' => ?_
    rcases List.mem_cons.mp hframe' with rfl | hframe'
    · exact hframe.readOn hread
    · exact hopen frame' (List.mem_cons_of_mem _ hframe')
  · intro hdefine hinclude
    obtain ⟨stream, haccess, hraw⟩ := hframe.mem hread
    exact ⟨hdefine, hinclude, x, frame.name, stream, raw, hvisits,
      ⟨frame, outer, raw, reader, hrunning, hpending, hfiles, hread, rfl⟩, haccess, hraw, rfl⟩

end Turns

/-- A run starts with its script, or with an error that is about no call. -/
theorem faithful_start (fs : FileSystem) (o : Options) (script : Text) :
    Faithful (start fs o script) (start fs o script) := by
  cases haccess : fs.access script with
  | ok stream =>
      rw [start_of_access haccess]
      constructor
      case fs => rfl
      case files =>
        intro hstatus frame hframe
        obtain rfl := List.mem_singleton.mp hframe
        exact FileFrame.genuine_of_access haccess
      case waiting => exact fun e he => absurd he List.not_mem_nil
      case poisoned =>
        intro error hstatus
        cases hstatus
  | error error =>
      rw [start, haccess]
      constructor
      case fs => rfl
      case files =>
        intro hstatus
        cases hstatus
      case waiting => exact fun e he => absurd he List.not_mem_nil
      case poisoned =>
        intro error' hstatus
        obtain rfl := Status.poisoned.inj hstatus
        exact .of_none rfl

/-- Every state that a run goes through is faithful to its files. -/
theorem Visits.faithful {x₀ x : Expander} (horderly : x₀.Orderly) (hstart : Faithful x₀ x₀)
    (h : Visits x₀ x) : Faithful x₀ x := by
  induction h with
  | start => exact hstart
  | @turn x y h hrunning hturn ih =>
      have hstatus := hturn.status.trans hrunning
      have hpoisoned : ∀ error, y.status = .poisoned error →
          Blames (Attested x₀ y.templates) error := by
        intro error herror
        rw [hstatus] at herror
        cases herror
      cases hturn with
      | handOut hpending =>
          refine ⟨ih.fs, ih.files, fun e he => ih.waiting e ?_, hpoisoned⟩
          rw [hpending]
          exact List.mem_cons_of_mem _ he
      | leave hpending hfiles hread =>
          refine ⟨ih.fs, fun _ frame hframe => ih.files hrunning frame ?_, ih.waiting, hpoisoned⟩
          rw [hfiles]
          exact List.mem_cons_of_mem _ hframe
      | carryOut hpending hfiles hread hexec =>
          obtain ⟨hfs, hgenuine, hresults⟩ := ih.execute h (h.orderly horderly).calls hrunning
            hpending hfiles hread hexec
          exact ⟨hfs, fun _ => hgenuine, hresults, hpoisoned⟩
  | finish h hrunning hpending hfiles ih =>
      refine ⟨ih.fs, ?_, ih.waiting, ?_⟩
      · intro hstatus
        cases hstatus
      · intro error hstatus
        cases hstatus
  | malformed h hrunning hpending hfiles hread ih =>
      refine ⟨ih.fs, ?_, ih.waiting, ?_⟩
      · intro hstatus
        cases hstatus
      · intro error hstatus
        obtain rfl := Status.poisoned.inj hstatus
        exact .of_none rfl
  | @fail x y frame outer raw reader error h hrunning hpending hfiles hread hexec ih =>
      obtain ⟨hfs, -, herror⟩ := ih.execute h (h.orderly horderly).calls hrunning
        hpending hfiles hread hexec
      have hwaits : y.pending = [] := (effect_of_execute hexec).unchanged.2.2.1.trans hpending
      refine ⟨hfs, ?_, ?_, ?_⟩
      · intro hstatus
        cases hstatus
      · intro e he
        rw [hwaits] at he
        cases he
      · intro error' hstatus
        obtain rfl := Status.poisoned.inj hstatus
        exact herror
  | report h hstatus ih => exact ⟨ih.fs, ih.files, ih.waiting, ih.poisoned⟩
  | settings h options ih => exact ⟨ih.fs, ih.files, ih.waiting, ih.poisoned⟩

/-- Chains of calls are truthful. For every file system, setting and script, after any actions of
    the user: an expression that is read comes from a command `f` of a file as its chain says. The
    calls of the chain are of different templates that are registered and have text, each has the
    part of the chain above it, and the outermost one is `f`; the chain is empty exactly if the
    expression is `f`; otherwise the expression has the file of the innermost template and the line
    of an expression in its text, and so has every call but the outermost in the template of the
    call above it. If reading fails with an error about arguments, a definition inside a call or a
    recursion, the same holds of the expression that the error points at, whose name is that of the
    template, and the template of a recursion is among its calls. -/
theorem perform_read_truthful (fs : FileSystem) (o : Options) (script : Text)
    (actions : List Action) :
    let x₀ := start fs o script
    let x := x₀.perform actions
    (∀ e y, x.read = (.ok (some e), y) → ∃ f, FileCommand x₀ f ∧ Truthful y.templates f e) ∧
    ∀ error y, x.read = (.error error, y) → ∀ name, error.cause.called? = some name →
      error.expr.name = name ∧
      (∀ trace, error.cause = .recursion name trace → name ∈ error.expr.stack.map (·.name)) ∧
      ∃ f, FileCommand x₀ f ∧ Truthful y.templates f error.expr := by
  intro x₀ x
  have hvisits : Visits x₀ x := visits_perform x₀ actions
  have hfaithful : ∀ z, Visits x₀ z → Faithful x₀ z :=
    fun z hz => hz.faithful (orderly_start fs o script) (faithful_start fs o script)
  constructor
  · intro e y hread
    obtain ⟨z, pending, hz, hpending, rfl⟩ := hvisits.exists_of_read_some hread
    exact (hfaithful z hz).waiting e (hpending ▸ List.mem_cons_self)
  · intro error y hread
    have hy := hvisits.read
    rw [hread] at hy
    exact (hfaithful y hy).poisoned error (status_of_read_error hread)

end Expander

end LineScript
