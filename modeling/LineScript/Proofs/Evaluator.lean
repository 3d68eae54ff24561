import LineScript.Expansion.Expander
import LineScript.Proofs.Nesting

/-!
# Evaluating a script in one piece

The expander keeps half-read files, waiting results and active calls, and hands out one result
at a time. This file says what it is to compute, as an evaluator that does nothing of the kind:
it reads a file to its end before it looks at the first expression, an `include` is the
evaluation of the other file on the spot, and a call is the list of what it expands to.

* `evalCommand`: what a command stands for inside given calls.
* `evalExpressions`: the expressions of a file, one after another.
* `evaluate`: a whole script.
-/

namespace LineScript

/-! ## Commands -/

/-- The names of calls, innermost first, as the active templates are kept. -/
def activeNames (frames : List Expanded) : List Text := (frames.map (·.name)).reverse

/-- One more call is one more active name. -/
theorem activeNames_append (frames : List Expanded) (site : Expanded) :
    activeNames (frames ++ [site]) = site.name :: activeNames frames := by
  simp [activeNames]

/-- What a command stands for inside the calls `frames`. A blank line and a command that calls
    nothing stand for themselves. A call stands for what the lines of its template's text stand
    for inside one more call; it fails with the first of them that fails. -/
def evalCommand (reg : Registry) (frames : List Expanded) (e : Expanded) :
    Except ExpansionError (List Expanded) :=
  let site := { e with stack := frames }
  if e.name = [] then .ok [site]
  else match _hcallee : reg.callee? e.name with
    | none => .ok [site]
    | some t =>
        if _hactive : (activeNames frames).contains e.name then
          .error (recursionError t site { frames })
        else do
          let args ← matchArguments t site
          let (lines, malformed) := readAll (Stream.ofText t.body)
          let results ← lines.mapM fun line => do
            evalCommand reg (frames ++ [site]) (← instantiate t args site line)
          match malformed with
          | some error => .error (.ofSyntax t.file error)
          | none => .ok results.flatten
termination_by idleTemplates reg (activeNames frames)
decreasing_by
  rw [activeNames_append]
  exact idleTemplates_cons_lt _hcallee (by simpa using _hactive)

section Equations

variable {reg : Registry} {frames : List Expanded} {e : Expanded} {t : Template}

/-- A blank line stands for itself. -/
theorem evalCommand_blank (hblank : e.name = []) :
    evalCommand reg frames e = .ok [{ e with stack := frames }] := by
  rw [evalCommand, if_pos hblank]

/-- So does a command that calls nothing. -/
theorem evalCommand_plain (hcallee : reg.callee? e.name = none) :
    evalCommand reg frames e = .ok [{ e with stack := frames }] := by
  rw [evalCommand]
  split
  · rfl
  · split
    · rfl
    · rename_i hsome
      rw [hcallee] at hsome
      cases hsome

/-- A line that is blank or calls nothing stands for itself. -/
theorem evalCommand_self (h : e.name = [] ∨ reg.callee? e.name = none) :
    evalCommand reg frames e = .ok [{ e with stack := frames }] :=
  h.elim evalCommand_blank evalCommand_plain

/-- A call of an active template is a recursion. -/
theorem evalCommand_active (hname : e.name ≠ []) (hcallee : reg.callee? e.name = some t)
    (hactive : (activeNames frames).contains e.name = true) :
    evalCommand reg frames e =
      .error (recursionError t { e with stack := frames } { frames }) := by
  rw [evalCommand, if_neg hname]
  split
  · rename_i hnone
    rw [hcallee] at hnone
    cases hnone
  · rename_i t' hsome
    obtain rfl : t = t' := Option.some.inj (hcallee.symm.trans hsome)
    rw [dif_pos hactive]

/-- What one line of a template's text stands for. -/
def evalLine (reg : Registry) (frames : List Expanded) (t : Template) (args : Arguments)
    (site : Expanded) (line : Expression) : Except ExpansionError (List Expanded) :=
  instantiate t args site line >>= evalCommand reg frames

/-- Any other call stands for what the lines of its template's text stand for. -/
theorem evalCommand_call (hname : e.name ≠ []) (hcallee : reg.callee? e.name = some t)
    (hidle : (activeNames frames).contains e.name = false) :
    evalCommand reg frames e = (do
      let site := { e with stack := frames }
      let args ← matchArguments t site
      let results ← (readAll (Stream.ofText t.body)).1.mapM
        (evalLine reg (frames ++ [site]) t args site)
      match (readAll (Stream.ofText t.body)).2 with
      | some error => .error (.ofSyntax t.file error)
      | none => .ok results.flatten) := by
  rw [evalCommand, if_neg hname]
  split
  · rename_i hnone
    rw [hcallee] at hnone
    cases hnone
  · rename_i t' hsome
    obtain rfl : t = t' := Option.some.inj (hcallee.symm.trans hsome)
    rw [dif_neg (by rw [hidle]; exact Bool.false_ne_true)]
    rfl

/-- What holds of every command that calls nothing, of every call of an active template, and of
    every other call if it holds of all commands one call deeper, holds of every command. -/
theorem evalCommand_induction (reg : Registry) {P : List Expanded → Expanded → Prop}
    (self : ∀ frames e, e.name = [] ∨ reg.callee? e.name = none → P frames e)
    (active : ∀ frames e t, e.name ≠ [] → reg.callee? e.name = some t →
      (activeNames frames).contains e.name = true → P frames e)
    (call : ∀ frames e t, e.name ≠ [] → reg.callee? e.name = some t →
      (activeNames frames).contains e.name = false →
      (∀ e', P (frames ++ [{ e with stack := frames }]) e') → P frames e)
    (frames : List Expanded) (e : Expanded) : P frames e := by
  -- the induction is on the idle templates, of which every call inside a call finds fewer
  induction hidle : idleTemplates reg (activeNames frames) using Nat.strongRecOn
    generalizing frames e with
  | ind idle ih =>
      subst hidle
      by_cases hblank : e.name = []
      · exact self frames e (.inl hblank)
      cases hcallee : reg.callee? e.name with
      | none => exact self frames e (.inr hcallee)
      | some t =>
          cases hactive : (activeNames frames).contains e.name with
          | true => exact active frames e t hblank hcallee hactive
          | false =>
              refine call frames e t hblank hcallee hactive fun e' => ih _ ?_ _ e' rfl
              rw [activeNames_append]
              exact idleTemplates_cons_lt hcallee hactive

end Equations

/-! ## Files -/

/-- What evaluating gives: the results in order, the error that stopped it, and the templates
    registered in the end. -/
structure Evaluation where
  results : List Expanded
  error : Option ExpansionError
  templates : Registry
deriving DecidableEq, Repr, Inhabited

namespace Evaluation

/-- Evaluation that is stopped by an error at once. -/
def stop (reg : Registry) (error : ExpansionError) : Evaluation := ⟨[], some error, reg⟩

/-- Evaluation that gives results and leaves the templates alone. -/
def give (reg : Registry) (results : List Expanded) : Evaluation := ⟨results, none, reg⟩

/-- An evaluation with results in front. -/
def after (ev : Evaluation) (results : List Expanded) : Evaluation :=
  { ev with results := results ++ ev.results }

/-- What comes behind an expression, given its results; if it failed, nothing does. -/
def behind (ev : Evaluation) (reg : Registry) : Except ExpansionError (List Expanded) → Evaluation
  | .ok results => ev.after results
  | .error error => .stop reg error

/-- Goes on unless an error stopped it. -/
def andThen (ev : Evaluation) (next : Registry → Evaluation) : Evaluation :=
  match ev.error with
  | some _ => ev
  | none => (next ev.templates).after ev.results

end Evaluation

mutual

/-- Evaluates the expressions of a file in order, then the error that ended its reading;
    `opened` names the open files, this one first. -/
def evalExpressions (fs : FileSystem) (o : Options) (opened : List Text) (file : Text)
    (malformed : Option SyntaxError) (raws : List Expression) (reg : Registry) : Evaluation :=
  match raws with
  | [] =>
      match malformed with
      | some error => .stop reg (.ofSyntax (o.displayPath file) error)
      | none => .give reg []
  | raw :: raws =>
      (evalExpression fs o opened (.ofExpression raw (o.displayPath file)) reg).andThen fun reg =>
        evalExpressions fs o opened file malformed raws reg
termination_by (closedNames fs opened, raws.length)

/-- Evaluates one expression of a file: a `define` registers its template, an `include` is the
    evaluation of the file that it names, and anything else is a command outside every call. -/
def evalExpression (fs : FileSystem) (o : Options) (opened : List Text) (e : Expanded)
    (reg : Registry) : Evaluation :=
  if e.name = defineWord then
    match Template.ofDefinition e >>= reg.define with
    | .ok reg => .give reg []
    | .error cause => .stop reg ⟨e, cause⟩
  else if e.name = includeWord then
    match includeTarget o e.body with
    | .error cause => .stop reg ⟨e, cause⟩
    | .ok file =>
        if _hopen : opened.contains file then
          .stop reg ⟨e, .includeCycle (opened.reverse ++ [file])⟩
        else match _haccess : fs.access file with
          | .error error => .stop reg ⟨e, .unopened file error⟩
          | .ok stream =>
              evalExpressions fs o (file :: opened) file (readAll stream).2 (readAll stream).1 reg
  else match evalCommand reg [] e with
    | .ok results => .give reg results
    | .error error => .stop reg error
termination_by (closedNames fs opened, 0)
decreasing_by
  exact .left _ _ (closedNames_cons_lt (FileSystem.mem_names_of_access _haccess)
    (by simpa using _hopen))

end

section Directives

variable {fs : FileSystem} {o : Options} {opened : List Text} {e : Expanded} {reg : Registry}
  {file : Text}

/-- A definition whose name is free is registered. -/
theorem evalExpression_define {t : Template} {last : Registry} (hname : e.name = defineWord)
    (hread : Template.ofDefinition e = .ok t) (hnew : reg.define t = .ok last) :
    evalExpression fs o opened e reg = .give last [] := by
  rw [evalExpression, if_pos hname, hread]
  simp only [bind, Except.bind, hnew]

/-- An `include` that names no file is an error. -/
theorem evalExpression_unnamed {cause : Cause} (hname : e.name = includeWord)
    (htarget : includeTarget o e.body = .error cause) :
    evalExpression fs o opened e reg = .stop reg ⟨e, cause⟩ := by
  rw [evalExpression, if_neg (hname ▸ defineWord_ne_includeWord.symm), if_pos hname, htarget]

/-- An `include` of an open file is a cycle. -/
theorem evalExpression_reopened (hname : e.name = includeWord)
    (htarget : includeTarget o e.body = .ok file) (hopen : opened.contains file = true) :
    evalExpression fs o opened e reg =
      .stop reg ⟨e, .includeCycle (opened.reverse ++ [file])⟩ := by
  rw [evalExpression, if_neg (hname ▸ defineWord_ne_includeWord.symm), if_pos hname, htarget]
  simp only [dif_pos hopen]

/-- An `include` of a closed file is the evaluation of that file. -/
theorem evalExpression_opened {stream : Stream} (hname : e.name = includeWord)
    (htarget : includeTarget o e.body = .ok file) (hclosed : opened.contains file = false)
    (haccess : fs.access file = .ok stream) :
    evalExpression fs o opened e reg =
      evalExpressions fs o (file :: opened) file (readAll stream).2 (readAll stream).1 reg := by
  rw [evalExpression, if_neg (hname ▸ defineWord_ne_includeWord.symm), if_pos hname, htarget]
  simp only [dif_neg (show ¬opened.contains file = true by rw [hclosed]; exact Bool.false_ne_true)]
  split
  · rename_i hfail
    rw [haccess] at hfail
    cases hfail
  · rename_i stream' hok
    obtain rfl : stream = stream' := Except.ok.inj (haccess.symm.trans hok)
    rfl

/-- An `include` of a file that does not open is an error. -/
theorem evalExpression_unopened {error : AccessError} (hname : e.name = includeWord)
    (htarget : includeTarget o e.body = .ok file) (hclosed : opened.contains file = false)
    (haccess : fs.access file = .error error) :
    evalExpression fs o opened e reg = .stop reg ⟨e, .unopened file error⟩ := by
  rw [evalExpression, if_neg (hname ▸ defineWord_ne_includeWord.symm), if_pos hname, htarget]
  simp only [dif_neg (show ¬opened.contains file = true by rw [hclosed]; exact Bool.false_ne_true)]
  split
  · rename_i error' hfail
    obtain rfl : error = error' := Except.error.inj (haccess.symm.trans hfail)
    rfl
  · rename_i hok
    rw [haccess] at hok
    cases hok

/-- Anything else is a command outside every call. -/
theorem evalExpression_command (hdefine : e.name ≠ defineWord) (hinclude : e.name ≠ includeWord) :
    evalExpression fs o opened e reg =
      match evalCommand reg [] e with
      | .ok results => .give reg results
      | .error error => .stop reg error := by
  rw [evalExpression, if_neg hdefine, if_neg hinclude]

end Directives

/-- Evaluates a script from no templates. A script that cannot be opened is stopped at its first
    line. -/
def evaluate (fs : FileSystem) (o : Options) (script : Text) : Evaluation :=
  match fs.access script with
  | .error error => .stop {} ⟨.atLine (o.displayPath script) 1, .unopened script error⟩
  | .ok stream => evalExpressions fs o [script] script (readAll stream).2 (readAll stream).1 {}

/-- A script that opens is the evaluation of its expressions. -/
theorem evaluate_of_access {fs : FileSystem} {o : Options} {script : Text} {stream : Stream}
    (haccess : fs.access script = .ok stream) :
    evaluate fs o script =
      evalExpressions fs o [script] script (readAll stream).2 (readAll stream).1 {} := by
  rw [evaluate, haccess]

end LineScript
