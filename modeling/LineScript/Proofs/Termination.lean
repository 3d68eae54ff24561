import LineScript.Proofs.Turns

/-!
# Expansion ends

Neither files nor templates shrink while a script is expanded: a file may be spliced and a
template called any number of times, and the name of a call may come from an argument. This file
states expansion as rules that know no bound on how deep calls nest or how long the search for
the next result goes on, so that a derivation is a finite computation, and shows that there is
always one and that it gives what the expander gives.

* `Returns`: expanding a command, by rules without a bound. `returns_iff` is the step from the
  room of `expandCall` to these rules.
* `Advances` and `Reads`: looking for the next result and handing it out, by such rules.
* `reads_terminate`: every read of a run returns, and after finitely many the run is over.
-/

namespace LineScript

/-! ## Calls -/

/-- What is expanded: a command, or lines of a template's text in a call. -/
inductive Job where
  | command (e : Expanded)
  | lines (t : Template) (args : Arguments) (site : Expanded) (lines : List Expression)

/-- The results of a text, unless a line of it is malformed. -/
def unlessMalformed (t : Template) (results : List Expanded) :
    Except ExpansionError (List Expanded) :=
  match (readAll (Stream.ofText t.body)).2 with
  | some error => .error (.ofSyntax t.file error)
  | none => .ok results

/-- Expanding a job inside the calls `calls` returns, with a result and the calls after it. -/
inductive Returns (reg : Registry) :
    Job → CallStack → Except ExpansionError (List Expanded) → CallStack → Prop where
  | blank {e : Expanded} {calls : CallStack} (hblank : e.name = []) :
      Returns reg (.command e) calls (.ok [e]) calls
  | plain {e : Expanded} {calls : CallStack} (hname : e.name ≠ [])
      (hcallee : reg.callee? e.name = none) :
      Returns reg (.command e) calls (.ok [{ e with stack := calls.frames }]) calls
  | recursion {e : Expanded} {calls : CallStack} {t : Template} (hname : e.name ≠ [])
      (hcallee : reg.callee? e.name = some t)
      (hpush : calls.push? { e with stack := calls.frames } = none) :
      Returns reg (.command e) calls
        (.error (recursionError t { e with stack := calls.frames } calls)) calls
  | mismatch {e : Expanded} {calls inner : CallStack} {t : Template} {error : ExpansionError}
      (hname : e.name ≠ []) (hcallee : reg.callee? e.name = some t)
      (hpush : calls.push? { e with stack := calls.frames } = some inner)
      (hargs : matchArguments t { e with stack := calls.frames } = .error error) :
      Returns reg (.command e) calls (.error error) inner.pop
  | call {e : Expanded} {calls inner after : CallStack} {t : Template} {args : Arguments}
      {result : Except ExpansionError (List Expanded)}
      (hname : e.name ≠ []) (hcallee : reg.callee? e.name = some t)
      (hpush : calls.push? { e with stack := calls.frames } = some inner)
      (hargs : matchArguments t { e with stack := calls.frames } = .ok args)
      (hlines : Returns reg (.lines t args { e with stack := calls.frames }
        (readAll (Stream.ofText t.body)).1) inner result after) :
      Returns reg (.command e) calls (result >>= unlessMalformed t) after.pop
  | done {t : Template} {args : Arguments} {site : Expanded} {calls : CallStack} :
      Returns reg (.lines t args site []) calls (.ok []) calls
  | unfit {t : Template} {args : Arguments} {site : Expanded} {calls : CallStack}
      {line : Expression} {lines : List Expression} {error : ExpansionError}
      (hline : instantiate t args site line = .error error) :
      Returns reg (.lines t args site (line :: lines)) calls (.error error) calls
  | failed {t : Template} {args : Arguments} {site e : Expanded} {calls after : CallStack}
      {line : Expression} {lines : List Expression} {error : ExpansionError}
      (hline : instantiate t args site line = .ok e)
      (hcommand : Returns reg (.command e) calls (.error error) after) :
      Returns reg (.lines t args site (line :: lines)) calls (.error error) after
  | next {t : Template} {args : Arguments} {site e : Expanded} {calls after last : CallStack}
      {line : Expression} {lines : List Expression} {results : List Expanded}
      {more : Except ExpansionError (List Expanded)}
      (hline : instantiate t args site line = .ok e)
      (hcommand : Returns reg (.command e) calls (.ok results) after)
      (hmore : Returns reg (.lines t args site lines) after more last) :
      Returns reg (.lines t args site (line :: lines)) calls
        (more.map (results.map (·.within after.frames) ++ ·)) last

/-- What a run computes for a job. -/
def Job.run (reg : Registry) : Job → Calling (List Expanded)
  | .command e => expandCommand reg (expandCall reg reg.size) e
  | .lines t args site text => expandLines reg (expandCall reg reg.size) t args site text

/-- A job leaves the active calls as it found them. -/
theorem Job.run_calls (reg : Registry) (job : Job) (calls : CallStack) :
    (job.run reg calls).2 = calls := by
  cases job with
  | command e => exact expandCommand_calls reg (expandCall_calls reg reg.size) e calls
  | lines t args site text =>
      exact expandLines_calls reg (expandCall_calls reg reg.size) t args site text calls

section Calls

variable {reg : Registry} {e : Expanded} {t : Template} {calls : CallStack}

/-- What a run computes for a call. -/
theorem run_call (hname : e.name ≠ []) (hcallee : reg.callee? e.name = some t) :
    (Job.command e).run reg calls = expandCall reg reg.size t e calls := by
  show expandCommand reg (expandCall reg reg.size) e calls = _
  rw [expandCommand, if_neg hname, hcallee]

/-- The call of an active template is refused. -/
theorem run_recursion (hname : e.name ≠ []) (hcallee : reg.callee? e.name = some t)
    (hpush : calls.push? { e with stack := calls.frames } = none) :
    (Job.command e).run reg calls =
      (.error (recursionError t { e with stack := calls.frames } calls), calls) := by
  rw [run_call hname hcallee, expandCall_unfold hcallee, hpush]

/-- A call without one argument for every parameter fails. -/
theorem run_mismatch {inner : CallStack} {error : ExpansionError} (hname : e.name ≠ [])
    (hcallee : reg.callee? e.name = some t)
    (hpush : calls.push? { e with stack := calls.frames } = some inner)
    (hargs : matchArguments t { e with stack := calls.frames } = .error error) :
    (Job.command e).run reg calls = (.error error, calls) := by
  rw [run_call hname hcallee, expandCall_unfold hcallee, hpush]
  simp only [expandBody, hargs]

/-- Any other call expands the lines of its template's text inside one more call. -/
theorem run_lines {inner : CallStack} {args : Arguments} (hname : e.name ≠ [])
    (hcallee : reg.callee? e.name = some t)
    (hpush : calls.push? { e with stack := calls.frames } = some inner)
    (hargs : matchArguments t { e with stack := calls.frames } = .ok args) :
    (Job.command e).run reg calls =
      (((Job.lines t args { e with stack := calls.frames }
        (readAll (Stream.ofText t.body)).1).run reg inner).1 >>= unlessMalformed t, calls) := by
  rw [run_call hname hcallee, expandCall_unfold hcallee, hpush]
  simp only [expandBody, hargs, Job.run]
  rcases expandLines reg (expandCall reg reg.size) t args { e with stack := calls.frames }
    (readAll (Stream.ofText t.body)).1 inner with ⟨_ | results, after⟩
  · rfl
  · simp only [bind, Except.bind, unlessMalformed]
    cases (readAll (Stream.ofText t.body)).2 with
    | none => rfl
    | some error => rfl

end Calls

section Lines

variable {reg : Registry} {t : Template} {args : Arguments} {site e : Expanded}
  {calls : CallStack} {line : Expression} {text : List Expression}

theorem run_unfit {error : ExpansionError} (hline : instantiate t args site line = .error error) :
    (Job.lines t args site (line :: text)).run reg calls = (.error error, calls) := by
  show expandLines _ _ t args site (line :: text) calls = _
  rw [expandLines, hline]

theorem run_failed {error : ExpansionError} {after : CallStack}
    (hline : instantiate t args site line = .ok e)
    (hcommand : (Job.command e).run reg calls = (.error error, after)) :
    (Job.lines t args site (line :: text)).run reg calls = (.error error, after) := by
  have hexpand : expandCommand reg (expandCall reg reg.size) e calls = (.error error, after) :=
    hcommand
  show expandLines _ _ t args site (line :: text) calls = _
  rw [expandLines, hline]
  simp only [hexpand]

theorem run_next {results : List Expanded} {after : CallStack}
    (hline : instantiate t args site line = .ok e)
    (hcommand : (Job.command e).run reg calls = (.ok results, after)) :
    (Job.lines t args site (line :: text)).run reg calls =
      (((Job.lines t args site text).run reg after).1.map
          (results.map (·.within after.frames) ++ ·),
        ((Job.lines t args site text).run reg after).2) := by
  have hexpand : expandCommand reg (expandCall reg reg.size) e calls = (.ok results, after) :=
    hcommand
  show expandLines _ _ t args site (line :: text) calls = _
  rw [expandLines, hline]
  simp only [hexpand, Job.run]
  rcases expandLines reg (expandCall reg reg.size) t args site text after with ⟨_ | more, last⟩
  · rfl
  · rfl

end Lines

/-- A derivation computes what a run computes. -/
theorem Returns.run_eq {reg : Registry} {job : Job} {calls after : CallStack}
    {result : Except ExpansionError (List Expanded)} (h : Returns reg job calls result after) :
    job.run reg calls = (result, after) := by
  induction h with
  | blank hblank =>
      show expandCommand _ _ _ _ = _
      rw [expandCommand, if_pos hblank]
  | plain hname hcallee =>
      show expandCommand _ _ _ _ = _
      rw [expandCommand, if_neg hname, hcallee]
  | recursion hname hcallee hpush => exact run_recursion hname hcallee hpush
  | mismatch hname hcallee hpush hargs =>
      rw [run_mismatch hname hcallee hpush hargs, CallStack.pop_of_push? hpush]
  | @call e calls inner after t args result hname hcallee hpush hargs hlines ih =>
      have hrestored := Job.run_calls reg (.lines t args { e with stack := calls.frames }
        (readAll (Stream.ofText t.body)).1) inner
      rw [ih] at hrestored
      obtain rfl : after = inner := hrestored
      rw [run_lines hname hcallee hpush hargs, ih, CallStack.pop_of_push? hpush]
  | done => rfl
  | unfit hline => exact run_unfit hline
  | failed hline _ ih => exact run_failed hline ih
  | next hline _ _ ihcommand ihmore => rw [run_next hline ihcommand, ihmore]

/-- If every command inside some calls returns, so do the lines of every text. -/
theorem returns_lines {reg : Registry} {calls : CallStack}
    (hcommands : ∀ e, Returns reg (.command e) calls ((Job.command e).run reg calls).1 calls)
    (t : Template) (args : Arguments) (site : Expanded) (text : List Expression) :
    Returns reg (.lines t args site text) calls
      ((Job.lines t args site text).run reg calls).1 calls := by
  induction text with
  | nil => exact .done
  | cons line text ih =>
      cases hline : instantiate t args site line with
      | error error =>
          rw [run_unfit hline]
          exact .unfit hline
      | ok e =>
          have hcommand := hcommands e
          have hrestored := Job.run_calls reg (.command e) calls
          rcases hrun : (Job.command e).run reg calls with ⟨_ | results, after⟩
          · rw [hrun] at hcommand hrestored
            obtain rfl : after = calls := hrestored
            rw [run_failed hline hrun]
            exact .failed hline hcommand
          · rw [hrun] at hcommand hrestored
            obtain rfl : after = calls := hrestored
            rw [run_next hline hrun]
            exact .next hline hcommand ih

/-- Every command returns. -/
theorem returns_command (reg : Registry) (calls : CallStack) (e : Expanded) :
    Returns reg (.command e) calls ((Job.command e).run reg calls).1 calls := by
  -- the induction is on the idle templates, of which every call inside a call finds fewer
  induction hidle : idleTemplates reg calls.active using Nat.strongRecOn generalizing calls e with
  | ind idle ih =>
      subst hidle
      by_cases hname : e.name = []
      · have hrun : (Job.command e).run reg calls = (.ok [e], calls) :=
          (Returns.blank hname).run_eq
        rw [hrun]
        exact .blank hname
      · cases hcallee : reg.callee? e.name with
        | none =>
            have hrun : (Job.command e).run reg calls =
                (.ok [{ e with stack := calls.frames }], calls) :=
              (Returns.plain hname hcallee).run_eq
            rw [hrun]
            exact .plain hname hcallee
        | some t =>
            cases hpush : calls.push? { e with stack := calls.frames } with
            | none =>
                rw [run_recursion hname hcallee hpush]
                exact .recursion hname hcallee hpush
            | some inner =>
                have hpop := CallStack.pop_of_push? hpush
                cases hargs : matchArguments t { e with stack := calls.frames } with
                | error error =>
                    have hreturns : Returns reg (.command e) calls (.error error) inner.pop :=
                      .mismatch hname hcallee hpush hargs
                    rw [run_mismatch hname hcallee hpush hargs]
                    rw [hpop] at hreturns
                    exact hreturns
                | ok args =>
                    have hlt : idleTemplates reg inner.active < idleTemplates reg calls.active :=
                      idleTemplates_push_lt (show reg.callee? { e with stack := calls.frames }.name
                        = some t from hcallee) hpush
                    have hlines := returns_lines (fun e => ih _ hlt inner e rfl) t args
                      { e with stack := calls.frames } (readAll (Stream.ofText t.body)).1
                    have hreturns := Returns.call hname hcallee hpush hargs hlines
                    rw [run_lines hname hcallee hpush hargs]
                    rw [hpop] at hreturns
                    exact hreturns

/-- Every job returns, with what a run computes for it and nothing else. -/
theorem returns_iff {reg : Registry} {e : Expanded} {calls after : CallStack}
    {result : Except ExpansionError (List Expanded)} :
    Returns reg (.command e) calls result after ↔
      expandFileCommand reg e calls = (result, after) := by
  constructor
  · intro h
    exact h.run_eq
  · intro h
    have hreturns := returns_command reg calls e
    have hrestored := Job.run_calls reg (.command e) calls
    have hrun : (Job.command e).run reg calls = (result, after) := h
    rw [hrun] at hreturns hrestored
    obtain rfl : after = calls := hrestored
    exact hreturns

/-! ## Runs -/

namespace Expander

/-- Carrying out an expression of a file returns. -/
inductive Executes (x : Expander) (e : Expanded) :
    Except ExpansionError (List Expanded) → Expander → Prop where
  | directive (hname : e.name = defineWord ∨ e.name = includeWord) :
      Executes x e (x.execute e).1 (x.execute e).2
  | command {result : Except ExpansionError (List Expanded)} {calls : CallStack}
      (hdefine : e.name ≠ defineWord) (hinclude : e.name ≠ includeWord)
      (hreturns : Returns x.templates (.command e) x.calls result calls) :
      Executes x e result { x with calls }

/-- Looking for the next result returns. -/
inductive Advances : Expander → Except ExpansionError (Option Expanded) → Expander → Prop where
  | handOut {x : Expander} {e : Expanded} {pending : List Expanded}
      (hpending : x.pending = e :: pending) : Advances x (.ok (some e)) { x with pending }
  | finish {x : Expander} (hpending : x.pending = []) (hfiles : x.files = []) :
      Advances x (.ok none) x
  | malformed {x : Expander} {frame : FileFrame} {outer : List FileFrame} {error : SyntaxError}
      {reader : Reader} (hpending : x.pending = []) (hfiles : x.files = frame :: outer)
      (hread : frame.reader.read = (.error error, reader)) :
      Advances x (.error (.ofSyntax (x.options.displayPath frame.name) error))
        { x with files := { frame with reader } :: outer }
  | leave {x y : Expander} {frame : FileFrame} {outer : List FileFrame} {reader : Reader}
      {outcome : Except ExpansionError (Option Expanded)}
      (hpending : x.pending = []) (hfiles : x.files = frame :: outer)
      (hread : frame.reader.read = (.ok none, reader))
      (hmore : Advances { x with files := outer, includes := x.includes.pop } outcome y) :
      Advances x outcome y
  | fail {x y : Expander} {frame : FileFrame} {outer : List FileFrame} {raw : Expression}
      {reader : Reader} {error : ExpansionError}
      (hpending : x.pending = []) (hfiles : x.files = frame :: outer)
      (hread : frame.reader.read = (.ok (some raw), reader))
      (hexec : Executes { x with files := { frame with reader } :: outer }
        (.ofExpression raw (x.options.displayPath frame.name)) (.error error) y) :
      Advances x (.error error) y
  | carryOut {x y z : Expander} {frame : FileFrame} {outer : List FileFrame} {raw : Expression}
      {reader : Reader} {results : List Expanded}
      {outcome : Except ExpansionError (Option Expanded)}
      (hpending : x.pending = []) (hfiles : x.files = frame :: outer)
      (hread : frame.reader.read = (.ok (some raw), reader))
      (hexec : Executes { x with files := { frame with reader } :: outer }
        (.ofExpression raw (x.options.displayPath frame.name)) (.ok results) y)
      (hmore : Advances { y with pending := results } outcome z) :
      Advances x outcome z

/-- Handing out the next result returns. -/
inductive Reads : Expander → Except ExpansionError (Option Expanded) → Expander → Prop where
  | poisoned {x : Expander} {error : ExpansionError} (hstatus : x.status = .poisoned error) :
      Reads x (.error error) x
  | finished {x : Expander} (hstatus : x.status = .finished) : Reads x (.ok none) x
  | give {x y : Expander} {e : Expanded} (hstatus : x.status = .running)
      (hadvance : Advances x (.ok (some e)) y) : Reads x (.ok (some e)) y
  | finish {x y : Expander} (hstatus : x.status = .running)
      (hadvance : Advances x (.ok none) y) : Reads x (.ok none) { y with status := .finished }
  | fail {x y : Expander} {error : ExpansionError} (hstatus : x.status = .running)
      (hadvance : Advances x (.error error) y) :
      Reads x (.error error) { y with status := .poisoned error }

/-- Carrying out an expression returns, with what the expander computes and nothing else. -/
theorem executes_iff {x y : Expander} {e : Expanded}
    {result : Except ExpansionError (List Expanded)} :
    x.Executes e result y ↔ x.execute e = (result, y) := by
  constructor
  · intro h
    cases h with
    | directive hname => rfl
    | command hdefine hinclude hreturns =>
        rw [execute, if_neg hdefine, if_neg hinclude, returns_iff.mp hreturns]
  · intro h
    by_cases hname : e.name = defineWord ∨ e.name = includeWord
    · have hexec := Executes.directive (x := x) hname
      rw [h] at hexec
      exact hexec
    · obtain ⟨hdefine, hinclude⟩ := not_or.mp hname
      rw [execute, if_neg hdefine, if_neg hinclude] at h
      obtain ⟨hresult, rfl⟩ := Prod.mk.inj h
      exact .command hdefine hinclude (returns_iff.mpr (Prod.ext hresult rfl))

/-- So does looking for the next result. -/
theorem advances_iff {x y : Expander} {outcome : Except ExpansionError (Option Expanded)} :
    x.Advances outcome y ↔ x.advance = (outcome, y) := by
  constructor
  · intro h
    induction h with
    | handOut hpending => exact advance_handOut hpending
    | finish hpending hfiles => exact advance_finish hpending hfiles
    | malformed hpending hfiles hread => rw [advance_read hpending hfiles, hread]
    | leave hpending hfiles hread _ ih => rw [advance_read hpending hfiles, hread, ih]
    | fail hpending hfiles hread hexec =>
        rw [advance_read hpending hfiles, hread]
        simp only [executes_iff.mp hexec]
    | carryOut hpending hfiles hread hexec _ ih =>
        rw [advance_read hpending hfiles, hread]
        simp only [executes_iff.mp hexec]
        exact ih
  · intro h
    fun_induction advance x with
    | case1 x e pending hpending =>
        obtain ⟨rfl, rfl⟩ := Prod.mk.inj h
        exact .handOut hpending
    | case2 x hpending hfiles =>
        obtain ⟨rfl, rfl⟩ := Prod.mk.inj h
        exact .finish hpending hfiles
    | case3 x hpending frame outer hfiles error reader hread =>
        obtain ⟨rfl, rfl⟩ := Prod.mk.inj h
        exact .malformed hpending hfiles hread
    | case4 x hpending frame outer hfiles reader hread ih =>
        exact .leave hpending hfiles hread (ih h)
    | case5 x hpending frame outer hfiles raw reader hread e error y hexec =>
        obtain ⟨rfl, rfl⟩ := Prod.mk.inj h
        exact .fail hpending hfiles hread (executes_iff.mpr hexec)
    | case6 x hpending frame outer hfiles raw reader hread e y' hexec ih =>
        have hwaits : y'.pending = [] := (effect_of_execute hexec).unchanged.2.2.1.trans hpending
        refine .carryOut hpending hfiles hread (executes_iff.mpr hexec) ?_
        rw [← hwaits]
        exact ih h
    | case7 x hpending frame outer hfiles raw reader hread e first pending y' hexec =>
        obtain ⟨rfl, rfl⟩ := Prod.mk.inj h
        exact .carryOut hpending hfiles hread (executes_iff.mpr hexec) (.handOut rfl)

/-- So does handing it out. -/
theorem reads_iff {x y : Expander} {outcome : Except ExpansionError (Option Expanded)} :
    x.Reads outcome y ↔ x.read = (outcome, y) := by
  constructor
  · intro h
    cases h with
    | poisoned hstatus => rw [read, hstatus]
    | finished hstatus => rw [read, hstatus]
    | give hstatus hadvance => rw [read, hstatus, advances_iff.mp hadvance]
    | finish hstatus hadvance => rw [read, hstatus, advances_iff.mp hadvance]
    | fail hstatus hadvance => rw [read, hstatus, advances_iff.mp hadvance]
  · intro h
    rw [read] at h
    cases hstatus : x.status with
    | poisoned error =>
        rw [hstatus] at h
        obtain ⟨rfl, rfl⟩ := Prod.mk.inj h
        exact .poisoned hstatus
    | finished =>
        rw [hstatus] at h
        obtain ⟨rfl, rfl⟩ := Prod.mk.inj h
        exact .finished hstatus
    | running =>
        rw [hstatus] at h
        rcases hadvance : x.advance with ⟨error | _ | e, z⟩
        · rw [hadvance] at h
          obtain ⟨rfl, rfl⟩ := Prod.mk.inj h
          exact .fail hstatus (advances_iff.mpr hadvance)
        · rw [hadvance] at h
          obtain ⟨rfl, rfl⟩ := Prod.mk.inj h
          exact .finish hstatus (advances_iff.mpr hadvance)
        · rw [hadvance] at h
          obtain ⟨rfl, rfl⟩ := Prod.mk.inj h
          exact .give hstatus (advances_iff.mpr hadvance)

/-- A run after a number of reads. -/
def afterReads : Nat → Expander → Expander
  | 0, x => x
  | n + 1, x => afterReads n x.read.2

/-- A run that is over: all input is consumed, or an error ended it. -/
def Over (x : Expander) : Prop := x.status = .finished ∨ ∃ error, x.status = .poisoned error

/-- A run that is over stays as it is. -/
theorem Over.read {x : Expander} (h : x.Over) : x.read.2 = x := by
  rcases h with hstatus | ⟨error, hstatus⟩
  · rw [Expander.read, hstatus]
  · rw [Expander.read, hstatus]

theorem Over.afterReads {x : Expander} (h : x.Over) (n : Nat) : x.afterReads n = x := by
  induction n with
  | zero => rfl
  | succ n ih =>
      show x.read.2.afterReads n = x
      rw [h.read, ih]

/-- Reads add up. -/
theorem afterReads_add (n m : Nat) (x : Expander) :
    x.afterReads (n + m) = (x.afterReads n).afterReads m := by
  induction n generalizing x with
  | zero => rw [Nat.zero_add]; rfl
  | succ n ih =>
      rw [Nat.succ_add]
      exact ih x.read.2

/-- The end and an error leave a run that is over. -/
theorem over_of_read {x y : Expander} {outcome : Except ExpansionError (Option Expanded)}
    (h : x.read = (outcome, y)) (hlast : ∀ e, outcome ≠ .ok (some e)) : y.Over := by
  cases reads_iff.mpr h with
  | poisoned hstatus => exact .inr ⟨_, hstatus⟩
  | finished hstatus => exact .inl hstatus
  | give hstatus hadvance => exact absurd rfl (hlast _)
  | finish hstatus hadvance => exact .inl rfl
  | fail hstatus hadvance => exact .inr ⟨_, rfl⟩

/-- Every run is over after finitely many reads. -/
theorem exists_over (x : Expander) : ∃ n, (x.afterReads n).Over := by
  -- the reads of `drain`, which become fewer because every result leaves less to do
  fun_induction drain x with
  | case1 x y hread => exact ⟨1, by rw [afterReads, hread]; exact over_of_read hread nofun⟩
  | case2 x error y hread => exact ⟨1, by rw [afterReads, hread]; exact over_of_read hread nofun⟩
  | case3 x e y hread es error z hdrain ih =>
      obtain ⟨n, hover⟩ := ih
      exact ⟨n + 1, by rw [afterReads, hread]; exact hover⟩

/-- Expansion always ends. For every file system, every setting and every script, each read of
    the run returns under the rules that know no bound, with what the expander hands out and
    nothing else, and from some number of reads on the run is over. -/
theorem reads_terminate (fs : FileSystem) (o : Options) (script : Text) :
    (∀ n outcome y, Reads ((start fs o script).afterReads n) outcome y ↔
      ((start fs o script).afterReads n).read = (outcome, y)) ∧
    ∃ n, ∀ m, n ≤ m → ((start fs o script).afterReads m).status = .finished ∨
      ∃ error, ((start fs o script).afterReads m).status = .poisoned error := by
  refine ⟨fun n outcome y => reads_iff, ?_⟩
  obtain ⟨n, hover⟩ := exists_over (start fs o script)
  refine ⟨n, ?_⟩
  intro m hm
  obtain ⟨k, rfl⟩ := Nat.exists_eq_add_of_le hm
  rw [afterReads_add, hover.afterReads k]
  exact hover

end Expander

end LineScript
