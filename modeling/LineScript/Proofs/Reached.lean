import LineScript.Proofs.Actions
import LineScript.Proofs.Refinement

/-!
# What a run comes to

Which expressions of files a run comes to can be said without running it: those of the script,
and those of every file that one of them splices. A run that ends without an error comes to all of
them, whatever order it reads the files in and however often.

* `Reaches`: the expressions that a list of expressions leads to.
* `wellFounded_turn`: a run takes finitely many turns.
* `tokenises_iff_ahead`: a run that meets no error comes to what its open files lead to.
-/

namespace LineScript

/-! ## Expressions that others lead to -/

/-- The expressions `es` of a file lead to `e`: it is one of them, or a file that one of them
    splices leads to it. -/
inductive Reaches (fs : FileSystem) (o : Options) : Text → List Expression → Expanded → Prop where
  | here {file : Text} {es : List Expression} {raw : Expression} (hmem : raw ∈ es) :
      Reaches fs o file es (.ofExpression raw (o.displayPath file))
  | through {file target : Text} {es : List Expression} {raw : Expression} {stream : Stream}
      {e : Expanded} (hmem : raw ∈ es) (hname : raw.name = includeWord)
      (htarget : includeTarget o raw.body = .ok target) (haccess : fs.access target = .ok stream)
      (hinner : Reaches fs o target (readAll stream).1 e) : Reaches fs o file es e

section Reaches

variable {fs : FileSystem} {o : Options} {file : Text} {e : Expanded}

/-- No expressions lead to nothing. -/
theorem not_reaches_nil : ¬Reaches fs o file [] e := by
  intro h
  cases h with
  | here hmem => cases hmem
  | through hmem => cases hmem

/-- A list leads to its first expression, to what that one splices, and to what the others lead
    to. -/
theorem reaches_cons {raw : Expression} {raws : List Expression} :
    Reaches fs o file (raw :: raws) e ↔
      e = .ofExpression raw (o.displayPath file) ∨
        (∃ target stream, raw.name = includeWord ∧ includeTarget o raw.body = .ok target ∧
          fs.access target = .ok stream ∧ Reaches fs o target (readAll stream).1 e) ∨
        Reaches fs o file raws e := by
  constructor
  · intro h
    cases h with
    | here hmem =>
        rcases List.mem_cons.mp hmem with rfl | hmem
        · exact .inl rfl
        · exact .inr (.inr (.here hmem))
    | through hmem hname htarget haccess hinner =>
        rcases List.mem_cons.mp hmem with rfl | hmem
        · exact .inr (.inl ⟨_, _, hname, htarget, haccess, hinner⟩)
        · exact .inr (.inr (.through hmem hname htarget haccess hinner))
  · rintro (rfl | ⟨target, stream, hname, htarget, haccess, hinner⟩ | h)
    · exact .here List.mem_cons_self
    · exact .through List.mem_cons_self hname htarget haccess hinner
    · cases h with
      | here hmem => exact .here (List.mem_cons_of_mem raw hmem)
      | through hmem hname htarget haccess hinner =>
          exact .through (List.mem_cons_of_mem raw hmem) hname htarget haccess hinner

end Reaches

namespace Expander

/-! ## Turns of a run that meets no error -/

/-- Every turn makes the work smaller, or hands out a result that waits. -/
theorem Turn.lt {x y : Expander} (h : Turn x y) :
    y.work < x.work ∨ (y.work = x.work ∧ y.pending.length < x.pending.length) := by
  cases h with
  | handOut hpending => exact .inr ⟨rfl, by simp [hpending]⟩
  | leave hpending hfiles hread =>
      refine .inl ?_
      simp only [work, hfiles, filesWork, IncludeStack.pop]
      omega
  | carryOut hpending hfiles hread hexec =>
      have hlt := work_execute_lt hfiles hread hexec
      exact .inl hlt

/-- A run takes finitely many turns. -/
theorem wellFounded_turn : WellFounded fun y x : Expander => Turn x y := by
  refine Subrelation.wf (r := InvImage (Prod.Lex (· < ·) (· < ·))
    fun x : Expander => (x.work, x.pending.length)) ?_ (InvImage.wf _ ?_)
  · intro y x h
    rcases h.lt with hlt | ⟨heq, hlt⟩
    · exact .left _ _ hlt
    · show Prod.Lex _ _ (y.work, y.pending.length) (x.work, x.pending.length)
      rw [heq]
      exact .right _ hlt
  · exact (Prod.lex ⟨_, Nat.lt_wfRel.wf⟩ ⟨_, Nat.lt_wfRel.wf⟩).wf

/-- Between two results a run that meets no error. -/
structure Smooth (x : Expander) : Prop where
  ready : x.Ready
  error : x.outlook.error = none

/-- A turn keeps a run between two results. -/
theorem Ready.turn {x y : Expander} (h : x.Ready) (hturn : Turn x y) : y.Ready := by
  cases hturn with
  | handOut => exact ⟨h.calls, h.readers⟩
  | leave hpending hfiles hread =>
      refine ⟨h.calls, ?_⟩
      intro f hf
      exact h.readers f (by simp [hfiles, hf])
  | carryOut hpending hfiles hread hexec => exact h.carryOut hfiles hread hexec _

/-- A turn does not bring an error nearer or take it away. -/
theorem Smooth.turn {x y : Expander} (h : x.Smooth) (hturn : Turn x y) : y.Smooth := by
  refine ⟨h.ready.turn hturn, ?_⟩
  have herror := h.error
  cases hturn with
  | handOut => exact herror
  | leave hpending hfiles hread =>
      rw [outlook_of_end h.ready hpending hfiles hread] at herror
      exact herror
  | carryOut hpending hfiles hread hexec =>
      rw [outlook_of_read h.ready hpending hfiles hread hexec] at herror
      exact herror

/-- A run that meets no error and is in a file takes a turn. -/
theorem Smooth.exists_turn {x : Expander} (h : x.Smooth) (hopen : x.files ≠ []) :
    ∃ y, Turn x y := by
  obtain ⟨frame, outer, hfiles⟩ := List.exists_cons_of_ne_nil hopen
  have herror := h.error
  cases hpending : x.pending with
  | cons e pending => exact ⟨_, .handOut hpending⟩
  | nil =>
      rcases hread : frame.reader.read with ⟨_ | _ | raw, reader⟩
      · rw [outlook_of_error h.ready hpending hfiles hread] at herror
        cases herror
      · exact ⟨_, .leave hpending hfiles hread⟩
      · rcases hexec : execute { x with files := { frame with reader } :: outer }
          (.ofExpression raw (x.options.displayPath frame.name)) with ⟨_ | results, y⟩
        · rw [outlook_of_read h.ready hpending hfiles hread hexec] at herror
          cases herror
        · exact ⟨_, .carryOut hpending hfiles hread hexec⟩

/-! ## What is ahead of a run -/

/-- The rests of open files lead to an expression. -/
def Ahead (fs : FileSystem) (o : Options) (files : List FileFrame) (e : Expanded) : Prop :=
  ∃ frame ∈ files, Reaches fs o frame.name frame.reader.rest.1 e

/-- Open files lead to what the innermost leads to and to what the others lead to. -/
theorem ahead_cons {fs : FileSystem} {o : Options} {frame : FileFrame} {outer : List FileFrame}
    {e : Expanded} :
    Ahead fs o (frame :: outer) e ↔
      Reaches fs o frame.name frame.reader.rest.1 e ∨ Ahead fs o outer e := by
  simp [Ahead]

/-- An expression that is carried out puts ahead what it splices, and nothing else. -/
theorem Effect.ahead_iff {x y : Expander} {e a : Expanded} {results : List Expanded}
    (h : x.Effect e (.ok results) y) :
    Ahead y.fs y.options y.files a ↔
      (∃ target stream, e.name = includeWord ∧ includeTarget x.options e.body = .ok target ∧
        x.fs.access target = .ok stream ∧ Reaches x.fs x.options target (readAll stream).1 a) ∨
      Ahead x.fs x.options x.files a := by
  have hnone : e.name ≠ includeWord → (Ahead x.fs x.options x.files a ↔
      (∃ target stream, e.name = includeWord ∧ includeTarget x.options e.body = .ok target ∧
        x.fs.access target = .ok stream ∧ Reaches x.fs x.options target (readAll stream).1 a) ∨
      Ahead x.fs x.options x.files a) := by
    intro hname
    refine ⟨.inr, ?_⟩
    rintro (⟨target, stream, hsplice, -⟩ | h)
    · exact absurd hsplice hname
    · exact h
  cases h with
  | registered hname hread hnew => exact hnone (hname ▸ defineWord_ne_includeWord)
  | expanded hdefine hinclude hexpand => exact hnone hinclude
  | opened hname htarget hclosed haccess =>
      rw [ahead_cons]
      refine or_congr_left ⟨?_, ?_⟩
      · intro h
        exact ⟨_, _, hname, htarget, haccess, h⟩
      · rintro ⟨target, stream, -, htarget', haccess', h⟩
        obtain rfl := Except.ok.inj (htarget.symm.trans htarget')
        obtain rfl := Except.ok.inj (haccess.symm.trans haccess')
        exact h

/-- A turn takes at most the expression it carries out from what is ahead. -/
theorem Turn.ahead_iff {x y : Expander} {e : Expanded} (h : Turn x y) (hready : x.Ready) :
    Ahead x.fs x.options x.files e ↔
      (∃ frame outer raw reader, x.pending = [] ∧ x.files = frame :: outer ∧
        frame.reader.read = (.ok (some raw), reader) ∧
        e = .ofExpression raw (x.options.displayPath frame.name)) ∨
      Ahead y.fs y.options y.files e := by
  cases h with
  | handOut hpending =>
      refine ⟨.inr, ?_⟩
      rintro (⟨frame, outer, raw, reader, hnone, -⟩ | h)
      · rw [hpending] at hnone; cases hnone
      · exact h
  | @leave frame outer reader hpending hfiles hread =>
      have hrest := Reader.rest_of_read_none (hready.readers frame (by simp [hfiles])) hread
      rw [hfiles, ahead_cons, hrest]
      refine ⟨?_, ?_⟩
      · rintro (h | h)
        · exact absurd h not_reaches_nil
        · exact .inr h
      · rintro (⟨frame', outer', raw, reader', -, hfiles', hread', -⟩ | h)
        · obtain ⟨rfl, -⟩ := List.cons.inj hfiles'
          rw [hread] at hread'
          cases hread'
        · exact .inr h
  | @carryOut y frame outer raw reader results hpending hfiles hread hexec =>
      have hrest := Reader.rest_of_read_some (hready.readers frame (by simp [hfiles])) hread
      have heffect := (effect_of_execute hexec).ahead_iff (a := e)
      show _ ↔ _ ∨ Ahead y.fs y.options y.files e
      rw [heffect, hfiles, ahead_cons, hrest, reaches_cons, ahead_cons, or_assoc, or_assoc]
      refine or_congr ⟨?_, ?_⟩ Iff.rfl
      · rintro rfl
        exact ⟨frame, outer, raw, reader, hpending, rfl, hread, rfl⟩
      · rintro ⟨frame', outer', raw', reader', -, hfiles', hread', rfl⟩
        obtain ⟨rfl, -⟩ := List.cons.inj hfiles'
        rw [hread] at hread'
        obtain ⟨hraw, -⟩ := Prod.mk.inj hread'
        rw [Option.some.inj (Except.ok.inj hraw)]

/-- What a run comes to was ahead. -/
theorem ahead_of_tokenises {x : Expander} {e : Expanded} (h : x.Tokenises e) (hready : x.Ready) :
    Ahead x.fs x.options x.files e := by
  induction h with
  | @now x frame outer raw reader hpending hfiles hread =>
      have hrest := Reader.rest_of_read_some (hready.readers frame (by simp [hfiles])) hread
      rw [hfiles, ahead_cons, hrest, reaches_cons]
      exact .inl (.inl rfl)
  | later hturn hcomes ih =>
      rw [hturn.ahead_iff hready]
      exact .inr (ih (hready.turn hturn))

/-- A run that meets no error comes to exactly what is ahead. -/
theorem tokenises_iff_ahead {x : Expander} {e : Expanded} (h : x.Smooth) :
    x.Tokenises e ↔ Ahead x.fs x.options x.files e := by
  refine ⟨fun hcomes => ahead_of_tokenises hcomes h.ready, ?_⟩
  induction x using wellFounded_turn.induction with
  | h x ih =>
      intro hahead
      have hopen : x.files ≠ [] := by
        obtain ⟨frame, hmem, -⟩ := hahead
        exact List.ne_nil_of_mem hmem
      obtain ⟨y, hturn⟩ := h.exists_turn hopen
      rcases (hturn.ahead_iff h.ready).mp hahead with ⟨frame, outer, raw, reader, hpending, hfiles,
        hread, rfl⟩ | hlater
      · exact .now hpending hfiles hread
      · exact .later hturn (ih y hturn (h.turn hturn) hlater)

/-! ## From the start -/

/-- A run ends as finished if it gives no error, and only then. -/
theorem finished_iff_error_eq_none (x : Expander) :
    x.drain.2.2.status = .finished ↔ x.drain.2.1 = none := by
  fun_induction drain x with
  | case1 x y hread =>
      refine ⟨fun _ => rfl, fun _ => ?_⟩
      cases reads_iff.mpr hread with
      | finished hstatus => exact hstatus
      | finish hstatus hadvance => rfl
  | case2 x error y hread =>
      refine ⟨fun h => ?_, fun hnone => by cases hnone⟩
      have hfinished : y.status = .finished := h
      cases reads_iff.mpr hread with
      | poisoned hstatus => rw [hstatus] at hfinished; cases hfinished
      | fail hstatus hadvance => cases hfinished
  | case3 x e y hread es error z hdrain ih =>
      rw [hdrain] at ih
      exact ih

/-- An error that a run gives has poisoned it. -/
theorem poisoned_of_error_eq_some {x : Expander} {error : ExpansionError}
    (h : x.drain.2.1 = some error) : x.drain.2.2.status = .poisoned error := by
  fun_induction drain x with
  | case1 x y hread => cases h
  | case2 x error' y hread =>
      obtain rfl := Option.some.inj h
      exact status_of_read_error hread
  | case3 x e y hread es error' z hdrain ih =>
      rw [hdrain] at ih
      exact ih h

/-- A run that is finished after some reads gives no error. -/
theorem error_eq_none_of_afterReads {x : Expander} {n : Nat}
    (h : (x.afterReads n).status = .finished) : x.drain.2.1 = none := by
  induction n generalizing x with
  | zero =>
      have hread : x.read = (.ok none, x) := by
        rw [read, show x.status = .finished from h]
      rw [drain, hread]
  | succ n ih =>
      rw [drain]
      rcases hread : x.read with ⟨error | _ | e, y⟩
      · -- the error is given again, whatever is read after it
        have hover : y.Over := by
          refine over_of_read hread ?_
          intro e heq
          cases heq
        have hstatus := status_of_read_error hread
        rw [afterReads, hread, hover.afterReads n, hstatus] at h
        cases h
      · rfl
      · rw [afterReads, hread] at h
        exact ih h

end Expander

end LineScript
