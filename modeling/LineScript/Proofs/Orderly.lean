import LineScript.Proofs.Actions
import LineScript.Proofs.Outcomes

/-!
# The state of a run

A run keeps two things twice: the files it is in, as readers and as names that guard against
cycles, and the calls it is in, as frames and as names that guard against recursion. They are
changed in different places and left on many ways out. This file shows that they agree in every
state that a run can be in, and that a call leaves no trace in the state, whatever comes of it.

* `Orderly`: what holds in every state. `Visits.orderly` is the proof, one case for every rule.
* `Meets`: the commands that a command comes to, at any depth, with the calls they are met in.
* `execute_command`: carrying out a command changes nothing.
-/

namespace LineScript

/-! ## Calls inside calls -/

/-- The frames and the active names are the same, each once. -/
structure CallStack.Coherent (calls : CallStack) : Prop where
  same : ∀ name, name ∈ calls.active ↔ name ∈ calls.frames.map (·.name)
  frames : (calls.frames.map (·.name)).Nodup
  active : calls.active.Nodup

/-- One more call has one more name, if it is new. -/
theorem nodup_names_append {frames : List Expanded} {site : Expanded}
    (h : (frames.map (·.name)).Nodup) (hnew : site.name ∉ frames.map (·.name)) :
    ((frames ++ [site]).map (·.name)).Nodup := by
  rw [List.map_append, List.nodup_append]
  refine ⟨h, List.pairwise_singleton _ _, ?_⟩
  rintro name hname other hother rfl
  rw [List.map_singleton, List.mem_singleton] at hother
  exact hnew (hother ▸ hname)

/-- Entering a call keeps them so. -/
theorem CallStack.Coherent.push? {calls inner : CallStack} {site : Expanded}
    (h : calls.Coherent) (hpush : calls.push? site = some inner) : inner.Coherent := by
  obtain ⟨hidle, rfl⟩ := CallStack.push?_eq_some hpush
  have hnew : site.name ∉ calls.active := by
    simpa using hidle
  constructor
  case same =>
    intro name
    simp only [List.mem_cons, List.map_append, List.mem_append, h.same name, List.map_cons,
      List.map_nil, List.not_mem_nil, or_false]
    exact Or.comm
  case frames => exact nodup_names_append h.frames (mt (h.same site.name).mpr hnew)
  case active => exact List.nodup_cons.mpr ⟨hnew, h.active⟩

/-- Expanding the command `f` of a file comes to the command `e` inside the calls `calls`. -/
inductive Meets (reg : Registry) (f : Expanded) : CallStack → Expanded → Prop where
  | here : Meets reg f {} f
  | inside {calls inner : CallStack} {e e' : Expanded} {t : Template} {args : Arguments}
      {line : Expression} (h : Meets reg f calls e) (hname : e.name ≠ [])
      (hcallee : reg.callee? e.name = some t)
      (hpush : calls.push? { e with stack := calls.frames } = some inner)
      (hargs : matchArguments t { e with stack := calls.frames } = .ok args)
      (hline : line ∈ (readAll (Stream.ofText t.body)).1)
      (hinstance : instantiate t args { e with stack := calls.frames } line = .ok e') :
      Meets reg f inner e'

/-- At any depth the frames and the active names are the same, each once. -/
theorem Meets.coherent {reg : Registry} {f e : Expanded} {calls : CallStack}
    (h : Meets reg f calls e) : calls.Coherent := by
  induction h with
  | here => exact ⟨fun name => Iff.rfl, .nil, .nil⟩
  | inside h hname hcallee hpush hargs hline hinstance ih => exact ih.push? hpush

/-- Inside a call there are no definitions. -/
theorem Meets.name_ne_defineWord {reg : Registry} {f e : Expanded} {calls : CallStack}
    (h : Meets reg f calls e) (hinside : calls.frames ≠ []) : e.name ≠ defineWord := by
  cases h with
  | here => exact absurd rfl hinside
  | inside h hname hcallee hpush hargs hline hinstance =>
      obtain ⟨name, body, -, -, hplain, rfl⟩ := instantiate_eq_ok hinstance
      exact hplain

namespace Expander

/-! ## States -/

/-- The names that guard against cycles are those of the open files, each once, and no call is
    active. -/
structure Aligned (x : Expander) : Prop where
  includes : x.includes.opened = x.files.map (·.name)
  nodup : x.includes.opened.Nodup
  calls : x.calls = {}

/-- Moreover, nothing waits when the run is over, and no file is open when all input is
    consumed. -/
structure Orderly (x : Expander) : Prop extends Aligned x where
  stopped : x.status ≠ .running → x.pending = []
  finished : x.status = .finished → x.files = []

section Turns

variable {x y : Expander} {frame : FileFrame} {outer : List FileFrame}

/-- Reading on in the innermost file leaves its name. -/
theorem Aligned.readOn (h : x.Aligned) (hfiles : x.files = frame :: outer) (reader : Reader) :
    Aligned { x with files := { frame with reader } :: outer } := by
  refine ⟨?_, h.nodup, h.calls⟩
  rw [h.includes, hfiles]
  rfl

/-- Carrying out a command changes nothing. -/
theorem execute_command (x : Expander) {f : Expanded} (hdefine : f.name ≠ defineWord)
    (hinclude : f.name ≠ includeWord) : (x.execute f).2 = x := by
  have hcalls : (expandFileCommand x.templates f x.calls).2 = x.calls :=
    expandCommand_calls _ (expandCall_calls _ _) _ _
  rw [execute, if_neg hdefine, if_neg hinclude]
  show { x with calls := (expandFileCommand x.templates f x.calls).2 } = x
  rw [hcalls]

/-- An expression opens a file under its name, or leaves the files as they are. -/
theorem Aligned.execute {e : Expanded} {result : Except ExpansionError (List Expanded)}
    (h : x.Aligned) (hexec : x.execute e = (result, y)) : y.Aligned := by
  cases effect_of_execute hexec with
  | registered => exact ⟨h.includes, h.nodup, h.calls⟩
  | misdefined => exact h
  | @opened file stream hname htarget hclosed haccess =>
      refine ⟨?_, ?_, h.calls⟩
      · show file :: x.includes.opened = file :: x.files.map (·.name)
        rw [h.includes]
      · refine List.nodup_cons.mpr ⟨?_, h.nodup⟩
        simpa using hclosed
  | untargeted => exact h
  | cyclic => exact h
  | unopened => exact h
  | expanded hdefine hinclude hexpand =>
      have hsame := execute_command x hdefine hinclude
      rw [hexec] at hsame
      exact hsame.symm ▸ h

/-- A turn keeps the names and the open files together. -/
theorem Aligned.turn (h : x.Aligned) (hturn : Turn x y) : y.Aligned := by
  cases hturn with
  | handOut => exact ⟨h.includes, h.nodup, h.calls⟩
  | leave hpending hfiles hread =>
      refine ⟨?_, h.nodup.tail, h.calls⟩
      show x.includes.opened.tail = _
      rw [h.includes, hfiles]
      rfl
  | carryOut hpending hfiles hread hexec =>
      have hy := (h.readOn hfiles _).execute hexec
      exact ⟨hy.includes, hy.nodup, hy.calls⟩

end Turns

/-- A run starts in order, whether its script opens or not. -/
theorem orderly_start (fs : FileSystem) (o : Options) (script : Text) :
    (start fs o script).Orderly := by
  rw [start]
  cases fs.access script with
  | ok stream =>
      refine ⟨⟨rfl, List.pairwise_singleton _ script, rfl⟩, fun hstatus => absurd rfl hstatus, ?_⟩
      intro hstatus
      cases hstatus
  | error error =>
      refine ⟨⟨rfl, .nil, rfl⟩, fun _ => rfl, ?_⟩
      intro hstatus
      cases hstatus

/-- A run that starts in order is in order in every state that it goes through. -/
theorem Visits.orderly {x₀ x : Expander} (hstart : x₀.Orderly) (h : Visits x₀ x) : x.Orderly := by
  induction h with
  | start => exact hstart
  | turn h hrunning hturn ih =>
      have hstatus := hturn.status.trans hrunning
      refine ⟨ih.toAligned.turn hturn, fun hover => absurd hstatus hover, ?_⟩
      intro hfinished
      rw [hstatus] at hfinished
      cases hfinished
  | finish h hrunning hpending hfiles ih =>
      exact ⟨⟨ih.includes, ih.nodup, ih.calls⟩, fun _ => hpending, fun _ => hfiles⟩
  | malformed h hrunning hpending hfiles hread ih =>
      have hread := ih.toAligned.readOn hfiles
      refine ⟨⟨(hread _).includes, ih.nodup, ih.calls⟩, fun _ => hpending, ?_⟩
      intro hstatus
      cases hstatus
  | fail h hrunning hpending hfiles hread hexec ih =>
      have hy := (ih.toAligned.readOn hfiles _).execute hexec
      have hwaits := (effect_of_execute hexec).unchanged.2.2.1
      refine ⟨⟨hy.includes, hy.nodup, hy.calls⟩, fun _ => hwaits.trans hpending, ?_⟩
      intro hstatus
      cases hstatus
  | report h hstatus ih =>
      exact ⟨⟨ih.includes, ih.nodup, ih.calls⟩, ih.stopped, ih.finished⟩
  | settings h options ih =>
      exact ⟨⟨ih.includes, ih.nodup, ih.calls⟩, ih.stopped, ih.finished⟩

/-- The invariant of a run. For every file system, setting and script, after any actions of the
    user: the names that guard against cycles are, in order, those of the open files, each once; no
    call is active, as a frame or by name; nothing waits when the run is over, and no file is open
    when all input is consumed. And calls leave no trace: at any depth the active calls are the same
    as frames and by name, each once, and no command that is met there is a definition; whatever
    comes of a call, the active calls are afterwards what they were before it; and carrying out a
    command of a file leaves the run as it is, its templates, its open files and their names, what
    waits and the active calls. -/
theorem perform_orderly (fs : FileSystem) (o : Options) (script : Text) (actions : List Action) :
    let x := (start fs o script).perform actions
    (x.includes.opened = x.files.map (·.name) ∧ x.includes.opened.Nodup) ∧
    (x.calls.frames = [] ∧ x.calls.active = []) ∧
    (x.status ≠ .running → x.pending = []) ∧ (x.status = .finished → x.files = []) ∧
    (∀ f calls e, Meets x.templates f calls e →
      (∀ name, name ∈ calls.active ↔ name ∈ calls.frames.map (·.name)) ∧
      (calls.frames.map (·.name)).Nodup ∧ calls.active.Nodup ∧
      (calls.frames ≠ [] → e.name ≠ defineWord)) ∧
    (∀ room t site calls, (expandCall x.templates room t site calls).2 = calls) ∧
    ∀ f, f.name ≠ defineWord → f.name ≠ includeWord → (x.execute f).2 = x := by
  intro x
  have horderly : x.Orderly :=
    (visits_perform (start fs o script) actions).orderly (orderly_start fs o script)
  refine ⟨⟨horderly.includes, horderly.nodup⟩, ?_, horderly.stopped, horderly.finished, ?_, ?_, ?_⟩
  · rw [horderly.calls]
    exact ⟨rfl, rfl⟩
  · intro f calls e hmeets
    exact ⟨hmeets.coherent.same, hmeets.coherent.frames, hmeets.coherent.active,
      hmeets.name_ne_defineWord⟩
  · intro room
    exact expandCall_calls x.templates room
  · intro f hdefine hinclude
    exact execute_command x hdefine hinclude

end Expander

end LineScript
