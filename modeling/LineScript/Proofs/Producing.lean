import LineScript.Proofs.Ledger
import LineScript.Proofs.Registering
import Mathlib.Logic.Relation

/-!
# What each expression of a file produces

A run hands out one list of results. This file takes the list apart again: every result was
produced by one expression of a file, at the moment when the run came to it, and what it produced
follows from the templates of that moment. Which these are can be told from the file, if the run
meets no error: the definitions above the expression have been registered, and the names of those
below are still free.

* `Produces`: an expression that a run comes to, and its results.
* `exists_produces_of_mem_drain`: every result is one of those.
* `Midway` and `Produces.midway`: the templates at the moment when an expression is carried out.
-/

namespace LineScript

/-! ## Commands -/

section Commands

variable {reg : Registry} {frames : List Expanded} {e : Expanded} {t : Template}

/-- What a command stands for is inside the calls that the command is in. -/
theorem settles_evalCommand_inside (reg : Registry) (frames : List Expanded) (e : Expanded) :
    Settles (fun results => ∀ r ∈ results, frames <+: r.stack) (fun _ => True)
      (evalCommand reg frames e) := by
  induction frames, e using evalCommand_induction reg with
  | self frames e hself =>
      rw [evalCommand_self hself]
      intro r hr
      obtain rfl := List.mem_singleton.mp hr
      exact List.prefix_refl frames
  | active frames e t hname hcallee hactive =>
      rw [evalCommand_active hname hcallee hactive]
      trivial
  | call frames e t hname hcallee hidle ih =>
      refine settles_evalCommand_call hname hcallee hidle (fun _ _ => trivial) ?_
      intro args line e' hline hinstance
      refine (ih e').mono (fun results hresults r hr => ?_) fun _ _ => trivial
      exact (List.prefix_append _ _).trans (hresults r hr)

/-- What a call in a file stands for is inside this call first. -/
theorem head?_stack_of_evalCommand {results : List Expanded} (hname : e.name ≠ [])
    (hcallee : reg.callee? e.name = some t) (heval : evalCommand reg [] e = .ok results) :
    ∀ r ∈ results, r.stack.head? = some { e with stack := [] } := by
  have hsettles : Settles (fun results => ∀ r ∈ results,
      r.stack.head? = some { e with stack := [] }) (fun _ => True) (evalCommand reg [] e) := by
    refine settles_evalCommand_call hname hcallee rfl (fun _ _ => trivial) ?_
    intro args line e' hline hinstance
    refine (settles_evalCommand_inside reg _ e').mono (fun results hresults r hr => ?_)
      fun _ _ => trivial
    obtain ⟨inner, hinner⟩ := hresults r hr
    rw [← hinner]
    rfl
  rw [heval] at hsettles
  exact hsettles

end Commands

namespace Expander

/-! ## Moments of a run -/

/-- The run is about to carry out the expression `f` of the innermost file, without an error. -/
inductive CarriesOut : Expander → Expanded → List Expanded → Prop where
  | intro {x y : Expander} {frame : FileFrame} {outer : List FileFrame} {raw : Expression}
      {reader : Reader} {results : List Expanded}
      (hpending : x.pending = []) (hfiles : x.files = frame :: outer)
      (hread : frame.reader.read = (.ok (some raw), reader))
      (hexec : execute { x with files := { frame with reader } :: outer }
        (.ofExpression raw (x.options.displayPath frame.name)) = (.ok results, y)) :
      CarriesOut x (.ofExpression raw (x.options.displayPath frame.name)) results

/-- The run comes to the expression `f` of a file, which gives `results`. -/
def Produces (x : Expander) (f : Expanded) (results : List Expanded) : Prop :=
  ∃ z, Relation.ReflTransGen Turn x z ∧ z.CarriesOut f results

section Moments

variable {x y : Expander} {f : Expanded} {results : List Expanded}

theorem Smooth.turns (h : x.Smooth) (hturns : Relation.ReflTransGen Turn x y) : y.Smooth := by
  induction hturns with
  | refl => exact h
  | tail _ hturn ih => exact ih.turn hturn

/-- A result that waits is the first of what is ahead. -/
theorem outlook_of_handOut {e : Expanded} {pending : List Expanded}
    (hpending : x.pending = e :: pending) :
    x.outlook = (outlook { x with pending }).after [e] := by
  rw [outlook, hpending]
  rfl

/-- What is ahead after a turn was ahead before it, last of all. -/
theorem Turn.results_isSuffix (hturn : Turn x y) (h : x.Smooth) :
    y.outlook.results <:+ x.outlook.results := by
  cases hturn with
  | handOut hpending =>
      rw [outlook_of_handOut hpending]
      exact List.suffix_append [_] _
  | leave hpending hfiles hread =>
      have hsame := outlook_of_end h.ready hpending hfiles hread
      exact hsame ▸ List.suffix_refl _
  | carryOut hpending hfiles hread hexec =>
      rw [outlook_of_read h.ready hpending hfiles hread hexec]
      exact List.suffix_refl _

/-- What is carried out gives the first of what is ahead. -/
theorem CarriesOut.results_isPrefix (hout : x.CarriesOut f results) (h : x.Smooth) :
    results <+: x.outlook.results := by
  cases hout with
  | intro hpending hfiles hread hexec =>
      rw [outlook_of_read h.ready hpending hfiles hread hexec]
      exact List.prefix_append _ _

/-- What an expression gives stands together among the results of the run. -/
theorem Produces.results_isInfix (hproduces : x.Produces f results) (h : x.Smooth) :
    results <:+: x.outlook.results := by
  obtain ⟨z, hturns, hout⟩ := hproduces
  have hfirst := hout.results_isPrefix (h.turns hturns)
  have hlast : z.outlook.results <:+ x.outlook.results := by
    clear hfirst hout
    induction hturns with
    | refl => exact List.suffix_refl _
    | tail hbefore hturn ih => exact (hturn.results_isSuffix (h.turns hbefore)).trans ih
  exact hfirst.isInfix.trans hlast.isInfix

/-- Every expression that a run without errors comes to produces something. -/
theorem exists_produces_of_tokenises (hcomes : x.Tokenises f) (h : x.Smooth) :
    ∃ results, x.Produces f results := by
  induction hcomes with
  | @now x frame outer raw reader hpending hfiles hread =>
      have herror := h.error
      rcases hexec : execute { x with files := { frame with reader } :: outer }
        (.ofExpression raw (x.options.displayPath frame.name)) with ⟨_ | results, y⟩
      · rw [outlook_of_read h.ready hpending hfiles hread hexec] at herror
        cases herror
      · exact ⟨results, x, .refl, .intro hpending hfiles hread hexec⟩
  | later hturn hcomes ih =>
      obtain ⟨results, z, hturns, hout⟩ := ih (h.turn hturn)
      exact ⟨results, z, .head hturn hturns, hout⟩

/-- What is ahead of a run waits already, or an expression produces it. -/
theorem exists_produces_of_mem_outlook {r : Expanded} (h : x.Smooth)
    (hr : r ∈ x.outlook.results) :
    r ∈ x.pending ∨ ∃ f results, x.Produces f results ∧ r ∈ results := by
  induction x using wellFounded_turn.induction with
  | h x ih =>
      by_cases hopen : x.files = []
      · have hwaits : x.outlook.results = x.pending := by
          rw [outlook, hopen]
          exact List.append_nil _
        exact .inl (hwaits ▸ hr)
      obtain ⟨y, hturn⟩ := h.exists_turn hopen
      -- what is produced after the turn is produced from here
      have hlater : r ∈ y.outlook.results →
          r ∈ y.pending ∨ ∃ f results, x.Produces f results ∧ r ∈ results := by
        intro hr
        refine (ih y hturn (h.turn hturn) hr).imp_right ?_
        rintro ⟨f, results, ⟨z, hturns, hout⟩, hmem⟩
        exact ⟨f, results, ⟨z, .head hturn hturns, hout⟩, hmem⟩
      cases hturn with
      | handOut hpending =>
          rw [outlook_of_handOut hpending] at hr
          rw [hpending]
          rcases List.mem_cons.mp hr with rfl | hr
          · exact .inl List.mem_cons_self
          · exact (hlater hr).imp_left (List.mem_cons_of_mem _)
      | leave hpending hfiles hread =>
          rw [outlook_of_end h.ready hpending hfiles hread] at hr
          exact hlater hr
      | carryOut hpending hfiles hread hexec =>
          rw [outlook_of_read h.ready hpending hfiles hread hexec] at hr
          rcases hlater hr with hwaits | hproduced
          · exact .inr ⟨_, _, ⟨x, .refl, .intro hpending hfiles hread hexec⟩, hwaits⟩
          · exact .inr hproduced

/-- So every result of a run that starts with nothing waiting was produced by an expression. -/
theorem exists_produces_of_mem_drain {r : Expanded} (h : x.Smooth)
    (hrunning : x.status = .running) (hpending : x.pending = []) (hr : r ∈ x.drain.1) :
    ∃ f results, x.Produces f results ∧ r ∈ results := by
  rw [(drain_eq_outlook h.ready hrunning).1] at hr
  rcases exists_produces_of_mem_outlook h hr with hwaits | hproduced
  · rw [hpending] at hwaits
    cases hwaits
  · exact hproduced

/-- A directive produces nothing, and a command what it stands for. -/
theorem CarriesOut.results_eq (hout : x.CarriesOut f results) (h : x.Ready) :
    ((f.name = defineWord ∨ f.name = includeWord) ∧ results = []) ∨
      (f.name ≠ defineWord ∧ f.name ≠ includeWord ∧
        evalCommand x.templates [] f = .ok results) := by
  cases hout with
  | intro hpending hfiles hread hexec =>
      cases effect_of_execute hexec with
      | registered hname => exact .inl ⟨.inl hname, rfl⟩
      | opened hname => exact .inl ⟨.inr hname, rfl⟩
      | expanded hdefine hinclude hexpand =>
          refine .inr ⟨hdefine, hinclude, ?_⟩
          rw [h.calls, expandFileCommand_eq_evalCommand _ rfl] at hexpand
          exact congrArg Prod.fst hexpand

end Moments

end Expander

/-! ## Templates of a moment -/

namespace Registry

variable {reg last : Registry} {e : Expanded} {t : Template}

/-- A template that is registered stays whatever is entered. -/
theorem get?_of_enter (h : reg.enter e = .ok last) {name : Text} (hget : reg.get? name = some t) :
    last.get? name = some t := by
  rcases enter_eq_ok h with ⟨-, u, -, hnew⟩ | ⟨-, rfl⟩
  · obtain ⟨-, rfl⟩ := define_eq_ok_iff.mp hnew
    exact get?_of_append rfl hget
  · exact hget

/-- A template that is defined is found under its name. -/
theorem get?_define (h : reg.define t = .ok last) : last.get? t.name = some t := by
  obtain ⟨hfree, rfl⟩ := define_eq_ok_iff.mp h
  rw [get?] at hfree ⊢
  rw [List.find?_append, hfree]
  simp

/-- The definitions among some expressions of a file are registered. -/
def Holds (reg : Registry) (o : Options) (file : Text) (raws : List Expression) : Prop :=
  ∀ decl ∈ raws, decl.name = defineWord →
    ∃ t, Template.ofDefinition (.ofExpression decl (o.displayPath file)) = .ok t ∧
      reg.get? t.name = some t

variable {o : Options} {file : Text} {raws : List Expression}

theorem Holds.enter (h : reg.Holds o file raws) (henter : reg.enter e = .ok last) :
    last.Holds o file raws := by
  intro decl hdecl hname
  obtain ⟨t, hread, hget⟩ := h decl hdecl hname
  exact ⟨t, hread, get?_of_enter henter hget⟩

/-- An expression that is entered is one more. -/
theorem Holds.concat {raw : Expression} (h : reg.Holds o file raws)
    (henter : reg.enter (.ofExpression raw (o.displayPath file)) = .ok last) :
    last.Holds o file (raws ++ [raw]) := by
  intro decl hdecl hname
  rcases List.mem_append.mp hdecl with hdecl | hdecl
  · exact h.enter henter decl hdecl hname
  · obtain rfl := List.mem_singleton.mp hdecl
    rcases enter_eq_ok henter with ⟨-, t, hread, hnew⟩ | ⟨hplain, -⟩
    · exact ⟨t, hread, get?_define hnew⟩
    · exact absurd hname hplain

end Registry

/-- The frame of a file has read what the file starts with, and the definitions in it are
    registered. -/
def FileFrame.Passed (fs : FileSystem) (o : Options) (reg : Registry) (frame : FileFrame) : Prop :=
  ∃ stream before, fs.access frame.name = .ok stream ∧
    (readAll stream).1 = before ++ frame.reader.rest.1 ∧ reg.Holds o frame.name before

section Passed

variable {fs : FileSystem} {o : Options} {reg last : Registry} {frame : FileFrame}

theorem FileFrame.passed_of_access {name : Text} {stream : Stream}
    (haccess : fs.access name = .ok stream) :
    FileFrame.Passed fs o reg ⟨name, .ofStream stream⟩ :=
  ⟨stream, [], haccess, rfl, fun _ hdecl => absurd hdecl List.not_mem_nil⟩

theorem FileFrame.Passed.enter {e : Expanded} (h : frame.Passed fs o reg)
    (henter : reg.enter e = .ok last) : frame.Passed fs o last := by
  obtain ⟨stream, before, haccess, hread, hholds⟩ := h
  exact ⟨stream, before, haccess, hread, hholds.enter henter⟩

/-- The expression that is read next has been read when it is entered. -/
theorem FileFrame.Passed.readOn {raw : Expression} {reader : Reader} (h : frame.Passed fs o reg)
    (hready : frame.reader.failed = none) (hread : frame.reader.read = (.ok (some raw), reader))
    (henter : reg.enter (.ofExpression raw (o.displayPath frame.name)) = .ok last) :
    FileFrame.Passed fs o last { frame with reader } := by
  obtain ⟨stream, before, haccess, hall, hholds⟩ := h
  refine ⟨stream, before ++ [raw], haccess, ?_, hholds.concat henter⟩
  rw [hall, Reader.rest_of_read_some hready hread, List.append_assoc]
  rfl

end Passed

/-- A file in the middle of its evaluation: the definitions in `before` are registered, `behind` is
    all else that the file holds, and from the templates `reg` its evaluation meets no error. -/
structure Midway (fs : FileSystem) (o : Options) (file : Text) (before behind : List Expression)
    (reg : Registry) : Prop where
  whole : ∃ stream, fs.access file = .ok stream ∧ (readAll stream).1 = before ++ behind
  registered : reg.Holds o file before
  ahead : ∃ opened last, Registers fs o opened file behind reg last

/-- The name of a definition that is evaluated without an error was free. -/
theorem Registers.free {fs : FileSystem} {o : Options} {opened : List Text} {file : Text}
    {raws : List Expression} {reg last : Registry} (h : Registers fs o opened file raws reg last)
    {decl : Expression} {t : Template} (hdecl : decl ∈ raws) (hname : decl.name = defineWord)
    (ht : Template.ofDefinition (.ofExpression decl (o.displayPath file)) = .ok t) :
    ¬reg.contains t.name = true := by
  induction h with
  | done => cases hdecl
  | define hdefine hread hnew hrest ih =>
      rcases List.mem_cons.mp hdecl with rfl | hdecl
      · obtain rfl := Except.ok.inj (hread.symm.trans ht)
        rw [Registry.contains, (Registry.define_eq_ok_iff.mp hnew).1]
        exact Bool.false_ne_true
      · exact fun htaken => ih hdecl ht (Registry.contains_of_define hnew htaken)
  | splice hinclude htarget hclosed haccess hwell hinner hrest ihinner ihrest =>
      rcases List.mem_cons.mp hdecl with rfl | hdecl
      · exact absurd (hname.symm.trans hinclude) defineWord_ne_includeWord
      · exact fun htaken => ihrest hdecl ht (hinner.contains htaken)
  | command hdefine hinclude hrest ih =>
      rcases List.mem_cons.mp hdecl with rfl | hdecl
      · exact absurd hname hdefine
      · exact ih hdecl ht

namespace Expander

variable {x y : Expander} {f : Expanded} {results : List Expanded}

/-- All that the open files have read is registered. -/
def Passed (x : Expander) : Prop := ∀ frame ∈ x.files, frame.Passed x.fs x.options x.templates

theorem passed_start {fs : FileSystem} {o : Options} {name : Text} {stream : Stream}
    (haccess : fs.access name = .ok stream) : (start fs o name).Passed := by
  rw [start_of_access haccess]
  intro frame hframe
  rw [List.mem_singleton.mp hframe]
  exact FileFrame.passed_of_access haccess

/-- A turn changes neither where files come from nor how they are shown. -/
theorem Turn.unchanged (hturn : Turn x y) : y.fs = x.fs ∧ y.options = x.options := by
  cases hturn with
  | handOut => exact ⟨rfl, rfl⟩
  | leave => exact ⟨rfl, rfl⟩
  | carryOut hpending hfiles hread hexec =>
      obtain ⟨hfs, hoptions, -⟩ := (effect_of_execute hexec).unchanged
      exact ⟨hfs, hoptions⟩

/-- A turn registers what it reads. -/
theorem Passed.turn (h : x.Passed) (hready : x.Ready) (hturn : Turn x y) : y.Passed := by
  obtain ⟨hfs, hoptions⟩ := hturn.unchanged
  rw [Passed, hfs, hoptions]
  cases hturn with
  | handOut => exact h
  | leave hpending hfiles hread =>
      intro frame hframe
      exact h frame (by simp [hfiles, hframe])
  | @carryOut y frame outer raw reader results hpending hfiles hread hexec =>
      have henter := (effect_of_execute hexec).enter
      have hfront : frame ∈ x.files := by simp [hfiles]
      have hopen : ∀ g ∈ { frame with reader } :: outer, g.Passed x.fs x.options y.templates := by
        intro g hg
        rcases List.mem_cons.mp hg with rfl | hg
        · exact (h frame hfront).readOn (hready.readers frame hfront) hread henter
        · exact (h g (by simp [hfiles, hg])).enter henter
      obtain ⟨-, ⟨hsame, -⟩ | ⟨name, stream, haccess, -, hmore, -⟩⟩ := execute_files hexec
      · intro g hg
        have hmem : g ∈ y.files := hg
        rw [hsame] at hmem
        exact hopen g hmem
      · intro g hg
        have hmem : g ∈ y.files := hg
        rw [hmore] at hmem
        rcases List.mem_cons.mp hmem with rfl | hg
        · exact FileFrame.passed_of_access haccess
        · exact hopen g hg

/-- The rest of the innermost file is evaluated without an error if the run meets none. -/
theorem Smooth.exists_registers {frame : FileFrame} {outer : List FileFrame} (h : x.Smooth)
    (hfiles : x.files = frame :: outer) :
    ∃ last, Registers x.fs x.options x.includes.opened frame.name frame.reader.rest.1
      x.templates last := by
  have herror := h.error
  rw [outlook, hfiles, LineScript.resume] at herror
  obtain ⟨hrest, -, -⟩ := Evaluation.error_andThen herror
  exact ⟨_, (registers_of_evalExpressions hrest).2⟩

/-- The moment of an expression that is carried out. -/
theorem CarriesOut.midway (hout : x.CarriesOut f results) (h : x.Smooth) (hpassed : x.Passed) :
    ∃ file before raw behind, f = .ofExpression raw (x.options.displayPath file) ∧
      Midway x.fs x.options file before (raw :: behind) x.templates := by
  cases hout with
  | @intro y frame outer raw reader results hpending hfiles hread hexec =>
      have hfront : frame ∈ x.files := by simp [hfiles]
      obtain ⟨stream, before, haccess, hall, hholds⟩ := hpassed frame hfront
      obtain ⟨last, hregisters⟩ := h.exists_registers hfiles
      have hrest := Reader.rest_of_read_some (h.ready.readers frame hfront) hread
      rw [hrest] at hall hregisters
      exact ⟨frame.name, before, raw, _, rfl, ⟨stream, haccess, hall⟩, hholds, _, last, hregisters⟩

/-- What an expression of a file produces is told by the templates of a moment at which its file is
    midway: a directive produces nothing, and a command what it stands for. -/
theorem Produces.midway (hproduces : x.Produces f results) (h : x.Smooth) (hpassed : x.Passed) :
    ∃ file before raw behind reg, f = .ofExpression raw (x.options.displayPath file) ∧
      Midway x.fs x.options file before (raw :: behind) reg ∧
      (((f.name = defineWord ∨ f.name = includeWord) ∧ results = []) ∨
        (f.name ≠ defineWord ∧ f.name ≠ includeWord ∧ evalCommand reg [] f = .ok results)) := by
  obtain ⟨z, hturns, hout⟩ := hproduces
  have hz : z.Passed ∧ z.fs = x.fs ∧ z.options = x.options := by
    clear hout
    induction hturns with
    | refl => exact ⟨hpassed, rfl, rfl⟩
    | tail hbefore hturn ih =>
        obtain ⟨hpassed, hfs, hoptions⟩ := ih
        obtain ⟨hfs', hoptions'⟩ := hturn.unchanged
        exact ⟨hpassed.turn (h.turns hbefore).ready hturn, hfs'.trans hfs,
          hoptions'.trans hoptions⟩
  have hsmooth := h.turns hturns
  obtain ⟨hpassed, hfs, hoptions⟩ := hz
  obtain ⟨file, before, raw, behind, hf, hmidway⟩ := hout.midway hsmooth hpassed
  rw [hfs, hoptions] at hmidway
  rw [hoptions] at hf
  exact ⟨file, before, raw, behind, z.templates, hf, hmidway, hout.results_eq hsmooth.ready⟩

end Expander

end LineScript
