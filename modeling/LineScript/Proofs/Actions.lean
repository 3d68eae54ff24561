import LineScript.Proofs.Termination

/-!
# What a user can do with a run

Between two results the user of a run may change its settings, and may ask for the next result in
one way or the other, in any order. A property that all states of a run share is proved for the
states between its turns, where each rule changes little (`Visits`), and then holds whatever the
user does (`visits_perform`).

* `Action`, `perform`: what a user does.
* `Visits`: the states that a run goes through, one rule for every way to leave a state.
* `Visits.advance`: how a result, the end and an error are come by.
-/

namespace LineScript

namespace Expander

/-- What a user can do with a run: ask for the next result, ask for it as an iteration, or change
    the root under which files are shown or the extension that an `include` adds. -/
inductive Action where
  | read
  | next
  | setRoot (root : Text)
  | setExtension (extension : Option Text)
deriving DecidableEq, Repr, Inhabited

/-- A run after an action. -/
def Action.apply (x : Expander) : Action → Expander
  | .read => x.read.2
  | .next => x.next.2
  | .setRoot root => x.setRoot root
  | .setExtension extension => x.setExtension extension

/-- A run after one action after another. -/
def perform (x : Expander) (actions : List Action) : Expander := actions.foldl Action.apply x

/-- The next thing that the run does is to carry out the expression `f` of its innermost file. -/
def Faces (x : Expander) (f : Expanded) : Prop :=
  ∃ frame outer raw reader, x.status = .running ∧ x.pending = [] ∧ x.files = frame :: outer ∧
    frame.reader.read = (.ok (some raw), reader) ∧
    f = .ofExpression raw (x.options.displayPath frame.name)

/-- The states that a run goes through from `x₀` on, between its turns and between the actions of
    its user. -/
inductive Visits (x₀ : Expander) : Expander → Prop where
  | start : Visits x₀ x₀
  | turn {x y : Expander} (h : Visits x₀ x) (hrunning : x.status = .running)
      (hturn : Turn x y) : Visits x₀ y
  /-- The last file has been left. -/
  | finish {x : Expander} (h : Visits x₀ x) (hrunning : x.status = .running)
      (hpending : x.pending = []) (hfiles : x.files = []) :
      Visits x₀ { x with status := .finished }
  /-- A file cannot be read on. -/
  | malformed {x : Expander} {frame : FileFrame} {outer : List FileFrame} {error : SyntaxError}
      {reader : Reader} (h : Visits x₀ x) (hrunning : x.status = .running)
      (hpending : x.pending = []) (hfiles : x.files = frame :: outer)
      (hread : frame.reader.read = (.error error, reader)) :
      Visits x₀ { x with
        files := { frame with reader } :: outer
        status := .poisoned (.ofSyntax (x.options.displayPath frame.name) error) }
  /-- An expression of a file fails. -/
  | fail {x y : Expander} {frame : FileFrame} {outer : List FileFrame} {raw : Expression}
      {reader : Reader} {error : ExpansionError} (h : Visits x₀ x) (hrunning : x.status = .running)
      (hpending : x.pending = []) (hfiles : x.files = frame :: outer)
      (hread : frame.reader.read = (.ok (some raw), reader))
      (hexec : execute { x with files := { frame with reader } :: outer }
        (.ofExpression raw (x.options.displayPath frame.name)) = (.error error, y)) :
      Visits x₀ { y with status := .poisoned error }
  /-- The user has been given the error of an iteration. -/
  | report {x : Expander} {error : ExpansionError} (h : Visits x₀ x)
      (hstatus : x.status = .poisoned error) : Visits x₀ { x with reported := true }
  /-- The user changes the settings. -/
  | settings {x : Expander} (h : Visits x₀ x) (options : Options) : Visits x₀ { x with options }

/-- A turn does not end a run. -/
theorem Turn.status {x y : Expander} (h : Turn x y) : y.status = x.status := by
  cases h with
  | handOut => rfl
  | leave => rfl
  | carryOut hpending hfiles hread hexec => exact (effect_of_execute hexec).unchanged.2.2.2

variable {x₀ x y : Expander}

/-- A run that comes to an expression that fails, wherever in its files it is, ends there, and hands
    out nothing of it. -/
theorem Faces.read_of_failure {site : Expanded} {error : ExpansionError} (h : x.Faces site)
    (hfail : ∀ files, ∃ y, execute { x with files } site = (.error error, y) ∧
      y.pending = x.pending) :
    ∃ y, x.read = (.error error, y) ∧ y.pending = [] := by
  obtain ⟨frame, outer, raw, reader, hrunning, hpending, hfiles, hread, rfl⟩ := h
  obtain ⟨y, hexec, hleft⟩ := hfail ({ frame with reader } :: outer)
  exact ⟨{ y with status := .poisoned error },
    reads_iff.mp (.fail hrunning (.fail hpending hfiles hread (executes_iff.mpr hexec))),
    hleft.trans hpending⟩

/-- What an outcome of looking for the next result says about the states that were visited: a
    result waited in one of them, at the end no file was open, and an error poisons the run. -/
def Sighted (x₀ : Expander) : Except ExpansionError (Option Expanded) × Expander → Prop
  | (.ok (some e), y) => ∃ z pending, Visits x₀ z ∧ z.status = .running ∧
      z.pending = e :: pending ∧ y = { z with pending }
  | (.ok none, y) => Visits x₀ y ∧ y.status = .running ∧ y.pending = [] ∧ y.files = []
  | (.error error, y) => Visits x₀ { y with status := .poisoned error }

/-- Looking for the next result goes through states of the run. -/
theorem Visits.advance (h : Visits x₀ x) (hrunning : x.status = .running) :
    Sighted x₀ x.advance := by
  fun_induction Expander.advance x with
  | case1 x e pending hpending => exact ⟨x, pending, h, hrunning, hpending, rfl⟩
  | case2 x hpending hfiles => exact ⟨h, hrunning, hpending, hfiles⟩
  | case3 x hpending frame outer hfiles error reader hread =>
      exact h.malformed hrunning hpending hfiles hread
  | case4 x hpending frame outer hfiles reader hread ih =>
      exact ih (h.turn hrunning (.leave hpending hfiles hread)) hrunning
  | case5 x hpending frame outer hfiles raw reader hread e error y hexec =>
      exact h.fail hrunning hpending hfiles hread hexec
  | case6 x hpending frame outer hfiles raw reader hread e y hexec ih =>
      have hturn := Turn.carryOut hpending hfiles hread hexec
      -- the results of the expression, none, are what waits already
      have hwaits : { y with pending := [] } = y := by
        rw [← (effect_of_execute hexec).unchanged.2.2.1.trans hpending]
      have hvisits := h.turn hrunning hturn
      have hstatus := hturn.status.trans hrunning
      rw [hwaits] at hvisits hstatus
      exact ih hvisits hstatus
  | case7 x hpending frame outer hfiles raw reader hread e first pending y hexec =>
      have hturn := Turn.carryOut hpending hfiles hread hexec
      exact ⟨_, pending, h.turn hrunning hturn, hturn.status.trans hrunning, rfl, rfl⟩

/-- So does asking for it. -/
theorem Visits.read (h : Visits x₀ x) : Visits x₀ x.read.2 := by
  obtain ⟨outcome, y, hread⟩ : ∃ outcome y, x.read = (outcome, y) := ⟨_, _, rfl⟩
  rw [hread]
  cases reads_iff.mpr hread with
  | poisoned hstatus => exact h
  | finished hstatus => exact h
  | give hstatus hadvance =>
      have hsighted := h.advance hstatus
      rw [advances_iff.mp hadvance] at hsighted
      obtain ⟨z, pending, hvisits, hrunning, hpending, rfl⟩ := hsighted
      exact hvisits.turn hrunning (.handOut hpending)
  | finish hstatus hadvance =>
      have hsighted := h.advance hstatus
      rw [advances_iff.mp hadvance] at hsighted
      obtain ⟨hvisits, hrunning, hpending, hfiles⟩ := hsighted
      exact hvisits.finish hrunning hpending hfiles
  | fail hstatus hadvance =>
      have hsighted := h.advance hstatus
      rw [advances_iff.mp hadvance] at hsighted
      exact hsighted

/-- The state in which a result waited. -/
theorem Visits.exists_of_read_some {e : Expanded} (h : Visits x₀ x)
    (hread : x.read = (.ok (some e), y)) :
    ∃ z pending, Visits x₀ z ∧ z.pending = e :: pending ∧ y = { z with pending } := by
  cases reads_iff.mpr hread with
  | give hstatus hadvance =>
      have hsighted := h.advance hstatus
      rw [advances_iff.mp hadvance] at hsighted
      obtain ⟨z, pending, hvisits, -, hpending, rfl⟩ := hsighted
      exact ⟨z, pending, hvisits, hpending, rfl⟩

/-- An error that is given has poisoned the run. -/
theorem status_of_read_error {error : ExpansionError} (hread : x.read = (.error error, y)) :
    y.status = .poisoned error := by
  cases reads_iff.mpr hread with
  | poisoned hstatus => exact hstatus
  | fail hstatus hadvance => rfl

/-- So does asking for it as an iteration. -/
theorem Visits.next (h : Visits x₀ x) : Visits x₀ x.next.2 := by
  have hread := h.read
  rw [Expander.next]
  split
  · exact h
  · split
    · rename_i houtcome; rw [houtcome] at hread; exact hread
    · rename_i houtcome; rw [houtcome] at hread; exact hread
    · rename_i houtcome
      rw [houtcome] at hread
      exact hread.report (status_of_read_error houtcome)

/-- So does every action. -/
theorem Visits.apply (h : Visits x₀ x) (action : Action) : Visits x₀ (action.apply x) := by
  cases action with
  | read => exact h.read
  | next => exact h.next
  | setRoot root => exact h.settings _
  | setExtension extension => exact h.settings _

/-- Whatever a user does, the run is in one of the states that it goes through. -/
theorem visits_perform (x₀ : Expander) (actions : List Action) :
    Visits x₀ (x₀.perform actions) := by
  suffices hfrom : ∀ x, Visits x₀ x → Visits x₀ (x.perform actions) from hfrom x₀ .start
  induction actions with
  | nil => intro x h; exact h
  | cons action actions ih =>
      intro x h
      exact ih (action.apply x) (h.apply action)

end Expander

end LineScript
