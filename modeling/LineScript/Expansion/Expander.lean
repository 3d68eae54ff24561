import LineScript.Expansion.Call
import LineScript.Expansion.Options
import LineScript.Expansion.Stacks
import LineScript.Expansion.Work

/-!
# The expander

An expander reads a script and the files it splices, and gives the expanded expressions one at a
time. It keeps the files it is in the middle of, innermost first; a `define` enters its template,
an `include` opens a file in front of the others, and everything else is expanded at once and
handed out piece by piece.

* `Expander.read` gives the next expression, the end, or the error that ends the run. An error
  and the end are final.
* `Expander.next` is the same as an iteration, in which the error comes once.
* `Expander.drain` gives all that is left.

`Effect` says once what carrying out an expression can do, one rule for every outcome. A run ends
because every line it reads makes the work ahead smaller (`work_execute_lt`).
-/

namespace LineScript

/-- Where an expander is in its life: there may be more, an error ended the run and is given again
    on every call, or all input is consumed. -/
inductive Status where
  | running
  | poisoned (error : ExpansionError)
  | finished
deriving DecidableEq, Repr, Inhabited

/-- A run of expansion. The files being read stand innermost first, with their names in `includes`
    to guard against cycles; `pending` are results that wait to be handed out, and `reported` says
    whether an iteration has given the error. -/
structure Expander where
  fs : FileSystem
  options : Options
  templates : Registry := {}
  files : List FileFrame := []
  includes : IncludeStack := {}
  calls : CallStack := {}
  pending : List Expanded := []
  status : Status := .running
  reported : Bool := false

namespace Expander

/-- Starts a run. A script that cannot be opened poisons it. -/
def start (fs : FileSystem) (options : Options) (script : Text) : Expander :=
  match fs.access script with
  | .ok stream =>
      { fs, options, files := [⟨script, .ofStream stream⟩], includes := ⟨[script]⟩ }
  | .error error =>
      { fs, options,
        status := .poisoned ⟨.atLine (options.displayPath script) 1, .unopened script error⟩ }

/-- Changes the root under which files are shown from now on. -/
def setRoot (x : Expander) (root : Text) : Expander :=
  { x with options := { x.options with root } }

/-- Changes the extension that `include` adds from now on. -/
def setExtension (x : Expander) (extension : Option Text) : Expander :=
  { x with options := { x.options with extension } }

/-! ## One expression of a file -/

/-- Registers the template that an expression defines. -/
def define (x : Expander) (e : Expanded) : Except Cause Expander := do
  let t ← Template.ofDefinition e
  let templates ← x.templates.define t
  return { x with templates }

/-- Opens the file that an expression splices. -/
def splice (x : Expander) (e : Expanded) : Except Cause Expander := do
  let file ← includeTarget x.options e.body
  match x.includes.push? file with
  | none => .error (.includeCycle (x.includes.cycle file))
  | some includes =>
      match x.fs.access file with
      | .ok stream => .ok { x with includes, files := ⟨file, .ofStream stream⟩ :: x.files }
      | .error error => .error (.unopened file error)

/-- Carries out an expression of a file: a directive changes the run and gives nothing, anything
    else gives its expansion. -/
def execute (x : Expander) (e : Expanded) : Except ExpansionError (List Expanded) × Expander :=
  if e.name = defineWord then
    match x.define e with
    | .ok x => (.ok [], x)
    | .error cause => (.error ⟨e, cause⟩, x)
  else if e.name = includeWord then
    match x.splice e with
    | .ok x => (.ok [], x)
    | .error cause => (.error ⟨e, cause⟩, x)
  else
    let (results, calls) := expandFileCommand x.templates e x.calls
    (results, { x with calls })

/-- What carrying out an expression of a file can do to a run: a definition enters its template, or
    cannot be read or has a name that is taken; a splice opens a file, or names none, or one that is
    open, or one that does not open; a command is expanded. -/
inductive Effect (x : Expander) (e : Expanded) :
    Except ExpansionError (List Expanded) → Expander → Prop where
  | registered {t : Template} {templates : Registry} (hname : e.name = defineWord)
      (hread : Template.ofDefinition e = .ok t)
      (hnew : x.templates.define t = .ok templates) :
      Effect x e (.ok []) { x with templates }
  | misdefined {cause : Cause} (hname : e.name = defineWord)
      (hfail : Template.ofDefinition e >>= x.templates.define = .error cause) :
      Effect x e (.error ⟨e, cause⟩) x
  | opened {file : Text} {stream : Stream} (hname : e.name = includeWord)
      (htarget : includeTarget x.options e.body = .ok file)
      (hclosed : x.includes.opened.contains file = false)
      (haccess : x.fs.access file = .ok stream) :
      Effect x e (.ok [])
        { x with
          includes := ⟨file :: x.includes.opened⟩, files := ⟨file, .ofStream stream⟩ :: x.files }
  | untargeted {cause : Cause} (hname : e.name = includeWord)
      (htarget : includeTarget x.options e.body = .error cause) :
      Effect x e (.error ⟨e, cause⟩) x
  | cyclic {file : Text} (hname : e.name = includeWord)
      (htarget : includeTarget x.options e.body = .ok file)
      (hopen : x.includes.opened.contains file = true) :
      Effect x e (.error ⟨e, .includeCycle (x.includes.opened.reverse ++ [file])⟩) x
  | unopened {file : Text} {error : AccessError} (hname : e.name = includeWord)
      (htarget : includeTarget x.options e.body = .ok file)
      (hclosed : x.includes.opened.contains file = false)
      (haccess : x.fs.access file = .error error) :
      Effect x e (.error ⟨e, .unopened file error⟩) x
  | expanded {result : Except ExpansionError (List Expanded)} {calls : CallStack}
      (hdefine : e.name ≠ defineWord) (hinclude : e.name ≠ includeWord)
      (hexpand : expandFileCommand x.templates e x.calls = (result, calls)) :
      Effect x e result { x with calls }

/-- The effect of a splice. -/
theorem effect_splice {x : Expander} {e : Expanded} (hname : e.name = includeWord) :
    x.Effect e (x.execute e).1 (x.execute e).2 := by
  have hdefine : e.name ≠ defineWord := hname ▸ defineWord_ne_includeWord.symm
  rw [execute, if_neg hdefine, if_pos hname, splice]
  cases htarget : includeTarget x.options e.body with
  | error cause => exact .untargeted hname htarget
  | ok file =>
      by_cases hopen : x.includes.contains file = true
      · have hpush : x.includes.push? file = none := if_pos hopen
        simp only [bind, Except.bind, hpush]
        exact .cyclic hname htarget hopen
      · have hpush : x.includes.push? file = some ⟨file :: x.includes.opened⟩ := if_neg hopen
        have hclosed : x.includes.contains file = false := by simpa using hopen
        simp only [bind, Except.bind, hpush]
        cases haccess : x.fs.access file with
        | error error => exact .unopened hname htarget hclosed haccess
        | ok stream => exact .opened hname htarget hclosed haccess

/-- Every expression has one of the effects. -/
theorem effect_execute (x : Expander) (e : Expanded) :
    x.Effect e (x.execute e).1 (x.execute e).2 := by
  by_cases hdefine : e.name = defineWord
  · rw [execute, if_pos hdefine, define]
    cases hread : Template.ofDefinition e with
    | error cause => exact .misdefined hdefine (by rw [hread]; rfl)
    | ok t =>
        cases hnew : x.templates.define t with
        | error cause =>
            simp only [bind, Except.bind, hnew]
            exact .misdefined hdefine (by rw [hread]; exact hnew)
        | ok templates =>
            simp only [bind, Except.bind, hnew]
            exact .registered hdefine hread hnew
  · by_cases hinclude : e.name = includeWord
    · exact effect_splice hinclude
    · rw [execute, if_neg hdefine, if_neg hinclude]
      exact .expanded hdefine hinclude rfl

/-- The effect of an expression of known outcome. -/
theorem effect_of_execute {x y : Expander} {e : Expanded}
    {result : Except ExpansionError (List Expanded)} (h : x.execute e = (result, y)) :
    x.Effect e result y := by
  have heffect := effect_execute x e
  rw [h] at heffect
  exact heffect

/-- An expression never changes where files come from, how they are shown, what waits, and where
    the run is in its life. -/
theorem Effect.unchanged {x y : Expander} {e : Expanded}
    {result : Except ExpansionError (List Expanded)} (h : x.Effect e result y) :
    y.fs = x.fs ∧ y.options = x.options ∧ y.pending = x.pending ∧ y.status = x.status := by
  cases h <;> exact ⟨rfl, rfl, rfl, rfl⟩

/-! ## Termination -/

/-- All that is ahead of a run. -/
def work (x : Expander) : Nat := filesWork x.fs x.files x.includes.opened

/-- The files after an expression was carried out: as before, or with one more in front that was
    closed and is listed. -/
theorem execute_files {x y : Expander} {e : Expanded}
    {result : Except ExpansionError (List Expanded)} (h : x.execute e = (result, y)) :
    y.fs = x.fs ∧ ((y.files = x.files ∧ y.includes = x.includes) ∨
      ∃ name stream, x.fs.access name = .ok stream ∧ x.includes.contains name = false ∧
        y.files = ⟨name, .ofStream stream⟩ :: x.files ∧
        y.includes = ⟨name :: x.includes.opened⟩) := by
  cases effect_of_execute h with
  | registered => exact ⟨rfl, .inl ⟨rfl, rfl⟩⟩
  | misdefined => exact ⟨rfl, .inl ⟨rfl, rfl⟩⟩
  | opened hname htarget hclosed haccess =>
      exact ⟨rfl, .inr ⟨_, _, haccess, hclosed, rfl, rfl⟩⟩
  | untargeted => exact ⟨rfl, .inl ⟨rfl, rfl⟩⟩
  | cyclic => exact ⟨rfl, .inl ⟨rfl, rfl⟩⟩
  | unopened => exact ⟨rfl, .inl ⟨rfl, rfl⟩⟩
  | expanded => exact ⟨rfl, .inl ⟨rfl, rfl⟩⟩

/-- Reading an expression of the innermost file and carrying it out makes the work smaller. -/
theorem work_execute_lt {x y : Expander} {frame : FileFrame} {outer : List FileFrame}
    {reader : Reader} {raw : Expression} {e : Expanded}
    {result : Except ExpansionError (List Expanded)}
    (hfiles : x.files = frame :: outer) (hread : frame.reader.read = (.ok (some raw), reader))
    (h : execute { x with files := { frame with reader } :: outer } e = (result, y)) :
    y.work < x.work := by
  have hlt := Reader.length_ahead_read_lt hread
  obtain ⟨hfs, ⟨hf, hi⟩ | ⟨name, stream, haccess, hclosed, hf, hi⟩⟩ := execute_files h
  · simp only [work, hfs, hf, hi, hfiles]
    exact filesWork_read_lt x.fs outer x.includes.opened hlt
  · simp only [work, hfs, hf, hi, hfiles]
    exact filesWork_splice_lt outer hlt haccess hclosed

/-! ## The run -/

/-- The next result, from those that wait or from the files. -/
def advance (x : Expander) : Except ExpansionError (Option Expanded) × Expander :=
  match x.pending with
  | e :: pending => (.ok (some e), { x with pending })
  | [] =>
      match _hfiles : x.files with
      | [] => (.ok none, x)
      | frame :: outer =>
          match _hread : frame.reader.read with
          | (.error error, reader) =>
              (.error (.ofSyntax (x.options.displayPath frame.name) error),
                { x with files := { frame with reader } :: outer })
          | (.ok none, _) => advance { x with files := outer, includes := x.includes.pop }
          | (.ok (some raw), reader) =>
              let e := Expanded.ofExpression raw (x.options.displayPath frame.name)
              match _hexec : execute { x with files := { frame with reader } :: outer } e with
              | (.error error, x) => (.error error, x)
              | (.ok [], x) => advance x
              | (.ok (first :: pending), x) => (.ok (some first), { x with pending })
termination_by x.work
decreasing_by
  · simp only [work, _hfiles, filesWork, IncludeStack.pop]
    omega
  · exact work_execute_lt _hfiles _hread _hexec

/-- The next expanded expression, `none` at the end, or the error that ends the run. -/
def read (x : Expander) : Except ExpansionError (Option Expanded) × Expander :=
  match x.status with
  | .poisoned error => (.error error, x)
  | .finished => (.ok none, x)
  | .running =>
      match x.advance with
      | (.ok (some e), x) => (.ok (some e), x)
      | (.ok none, x) => (.ok none, { x with status := .finished })
      | (.error error, x) => (.error error, { x with status := .poisoned error })

/-- The next expression as an iteration: an error ends it after it has been given once. -/
def next (x : Expander) : Option (Except ExpansionError Expanded) × Expander :=
  if x.reported then (none, x)
  else match x.read with
    | (.ok none, x) => (none, x)
    | (.ok (some e), x) => (some (.ok e), x)
    | (.error error, x) => (some (.error error), { x with reported := true })

/-! ## Whole runs -/

/-- A result leaves less work, or as much work and fewer results that wait. -/
theorem advance_lt {x y : Expander} {e : Expanded} (h : x.advance = (.ok (some e), y)) :
    y.work < x.work ∨ (y.work = x.work ∧ y.pending.length < x.pending.length) := by
  fun_induction advance x with
  | case1 x e' pending hpending =>
      simp only [Prod.mk.injEq] at h
      obtain ⟨-, rfl⟩ := h
      exact .inr ⟨rfl, by simp [hpending]⟩
  | case2 => simp at h
  | case3 => simp at h
  | case4 x _ frame outer hfiles _ _ ih =>
      have hpop : work { x with files := outer, includes := x.includes.pop } < x.work := by
        simp only [work, hfiles, filesWork, IncludeStack.pop]
        omega
      rcases ih h with hlt | ⟨heq, -⟩
      · exact .inl (Nat.lt_trans hlt hpop)
      · exact .inl (heq ▸ hpop)
  | case5 => simp at h
  | case6 x _ frame outer hfiles raw reader hread _ _ hexec ih =>
      have hwork := work_execute_lt hfiles hread hexec
      rcases ih h with hlt | ⟨heq, -⟩
      · exact .inl (Nat.lt_trans hlt hwork)
      · exact .inl (heq ▸ hwork)
  | case7 x _ frame outer hfiles raw reader hread _ first pending _ hexec =>
      have hwork := work_execute_lt hfiles hread hexec
      simp only [Prod.mk.injEq] at h
      obtain ⟨-, rfl⟩ := h
      exact .inl hwork

/-- So does a result handed out. -/
theorem read_lt {x y : Expander} {e : Expanded} (h : x.read = (.ok (some e), y)) :
    y.work < x.work ∨ (y.work = x.work ∧ y.pending.length < x.pending.length) := by
  unfold read at h
  split at h
  · simp at h
  · simp at h
  · split at h
    · rename_i hadvance
      simp only [Prod.mk.injEq, Except.ok.injEq, Option.some.injEq] at h
      obtain ⟨rfl, rfl⟩ := h
      exact advance_lt hadvance
    · simp at h
    · simp at h

/-- All results that are left, the error that ends the run if one does, and the run after it. -/
def drain (x : Expander) : List Expanded × Option ExpansionError × Expander :=
  match _h : x.read with
  | (.ok none, y) => ([], none, y)
  | (.error error, y) => ([], some error, y)
  | (.ok (some e), y) =>
      let (es, error, z) := drain y
      (e :: es, error, z)
termination_by (x.work, x.pending.length)
decreasing_by
  rcases read_lt _h with hlt | ⟨heq, hlt⟩
  · exact .left _ _ hlt
  · rw [heq]
    exact .right _ hlt

end Expander

/-- Expands a script to its end: all results, and the error that stopped it. -/
def expandScript (fs : FileSystem) (options : Options) (script : Text) :
    List Expanded × Option ExpansionError :=
  let (es, error, _) := (Expander.start fs options script).drain
  (es, error)

/-- How many commands a script expands to, or the error that stops it. -/
def countCommands (fs : FileSystem) (options : Options) (script : Text) :
    Except ExpansionError Nat :=
  match expandScript fs options script with
  | (es, none) => .ok (es.countP (!·.isBlankLine))
  | (_, some error) => .error error

end LineScript
