import LineScript.Proofs.Turns

/-!
# The expander computes the evaluator

The expander and the evaluator treat a script in different orders: the one is in the middle of
several files and keeps results that wait, the other finishes whatever it starts. What the
expander has yet to do is therefore a continuation of the evaluator: hand out what waits, then
evaluate the rest of every open file, the innermost first (`Expander.outlook`). Every turn of the
expander leaves that continuation as it is, less the result that it hands out.

* `expandFileCommand_eq_evalCommand`: the machinery of active calls computes `evalCommand`.
* `outlook_of_read`: one expression of the innermost file.
* `drain_eq_outlook`: a whole run, from any state between two results.
-/

namespace LineScript

/-! ## Calls -/

/-- What has calls keeps them. -/
theorem Expanded.within_within {frames : List Expanded} (hne : frames ≠ [])
    (outer : List Expanded) (e : Expanded) :
    (e.within frames).within outer = e.within frames := by
  cases hstack : e.stack with
  | nil => simp [Expanded.within, hstack, hne]
  | cons frame stack => simp [Expanded.within, hstack]

/-- A line of a template's text starts outside every call. -/
theorem instantiate_stack {t : Template} {args : Arguments} {site : Expanded} {line : Expression}
    {e : Expanded} (h : instantiate t args site line = .ok e) : e.stack = [] := by
  simp only [instantiate, bind, Except.bind] at h
  split at h
  · cases h
  · split at h
    · cases h
    · split at h
      · cases h
      · obtain rfl := Except.ok.inj h
        rfl

section Lines

variable {reg : Registry} {call : Template → Expanded → Calling (List Expanded)}
  {calls : CallStack}

/-- A way to call that gives, up to the calls of blank lines, what commands stand for inside
    `calls`. -/
def Evaluating (reg : Registry) (call : Template → Expanded → Calling (List Expanded))
    (calls : CallStack) : Prop :=
  ∀ e : Expanded, e.stack = [] →
    (expandCommand reg call e calls).1.map (List.map (Expanded.within calls.frames)) =
      evalCommand reg calls.frames e

/-- The lines of a template's text stand for what each of them stands for, in order. -/
theorem expandLines_eq_mapM (hcall : Restoring call) (heval : Evaluating reg call calls)
    (t : Template) (args : Arguments) (site : Expanded) (lines : List Expression) :
    (expandLines reg call t args site lines calls).1 =
      (lines.mapM (evalLine reg calls.frames t args site)).map List.flatten := by
  induction lines with
  | nil => rfl
  | cons line lines ih =>
      rw [List.mapM_cons, expandLines, evalLine]
      cases hline : instantiate t args site line with
      | error error => rfl
      | ok e =>
          have hcommand := heval e (instantiate_stack hline)
          have hrestored := expandCommand_calls reg hcall e calls
          rcases hexpand : expandCommand reg call e calls with ⟨result, after⟩
          rw [hexpand] at hcommand hrestored
          obtain rfl : after = calls := hrestored
          simp only [bind, Except.bind, ← hcommand, hexpand]
          cases result with
          | error error => rfl
          | ok results =>
              rcases hmore : expandLines reg call t args site lines after with ⟨more, last⟩
              rw [hmore] at ih
              cases hrest : lines.mapM (evalLine reg after.frames t args site) with
              | error error =>
                  rw [hrest] at ih
                  obtain rfl : more = .error error := ih
                  simp only [Except.map, hmore]
              | ok rest =>
                  rw [hrest] at ih
                  obtain rfl : more = .ok rest.flatten := ih
                  simp only [Except.map, hmore]
                  rfl

/-- Inside a call every result of a text has its calls already. -/
theorem expandLines_within (reg : Registry) (hcall : Restoring call) (hne : calls.frames ≠ [])
    (outer : List Expanded) (t : Template) (args : Arguments) (site : Expanded)
    (lines : List Expression) :
    (expandLines reg call t args site lines calls).1.map (List.map (Expanded.within outer)) =
      (expandLines reg call t args site lines calls).1 := by
  induction lines with
  | nil => rfl
  | cons line lines ih =>
      rw [expandLines]
      split
      · rfl
      · rename_i e _
        have hrestored := expandCommand_calls reg hcall e calls
        split
        · rfl
        · rename_i results after hok
          rw [hok] at hrestored
          obtain rfl : after = calls := hrestored
          split
          · rfl
          · rename_i more last hmore
            rw [hmore] at ih
            have hmap := Except.ok.inj ih
            simp only [Except.map, List.map_append, List.map_map, hmap]
            refine congrArg (fun first => Except.ok (first ++ more)) (List.map_congr_left ?_)
            intro result _
            exact Expanded.within_within hne outer result

/-- The text of a template stands for what its lines stand for, up to its first malformed line. -/
theorem expandBody_eq_mapM (hcall : Restoring call) (heval : Evaluating reg call calls)
    (hne : calls.frames ≠ []) (outer : List Expanded) (t : Template) (site : Expanded) :
    (expandBody reg call t site calls).1.map (List.map (Expanded.within outer)) = (do
      let args ← matchArguments t site
      let results ← (readAll (Stream.ofText t.body)).1.mapM
        (evalLine reg calls.frames t args site)
      match (readAll (Stream.ofText t.body)).2 with
      | some error => .error (.ofSyntax t.file error)
      | none => .ok results.flatten) := by
  simp only [expandBody]
  cases hargs : matchArguments t site with
  | error error => rfl
  | ok args =>
      simp only [bind, Except.bind]
      generalize hread : readAll (Stream.ofText t.body) = text
      have hlines := expandLines_eq_mapM hcall heval t args site text.1
      have hwithin := expandLines_within reg hcall hne outer t args site text.1
      rcases hexpand : expandLines reg call t args site text.1 calls with ⟨result, after⟩
      rw [hexpand] at hlines hwithin
      cases hrest : text.1.mapM (evalLine reg calls.frames t args site) with
      | error error =>
          rw [hrest] at hlines
          obtain rfl : result = .error error := hlines
          rfl
      | ok rest =>
          rw [hrest] at hlines
          obtain rfl : result = .ok rest.flatten := hlines
          cases text.2 with
          | some error => rfl
          | none => exact hwithin

end Lines

/-- The active names are those of the calls. -/
def CallStack.Sound (calls : CallStack) : Prop := calls.active = activeNames calls.frames

/-- Entering a call keeps the active names those of the calls. -/
theorem CallStack.Sound.push? {calls inner : CallStack} {site : Expanded} (h : calls.Sound)
    (hpush : calls.push? site = some inner) : inner.Sound := by
  obtain ⟨-, rfl⟩ := CallStack.push?_eq_some hpush
  show site.name :: calls.active = activeNames (calls.frames ++ [site])
  rw [activeNames_append, h]

/-- The machinery of active calls gives what a command stands for. -/
theorem evaluating_expandCall (reg : Registry) {calls : CallStack} (hsound : calls.Sound) :
    Evaluating reg (expandCall reg reg.size) calls := by
  -- the induction is on the idle templates, of which every call inside a call finds fewer
  induction hidle : idleTemplates reg calls.active using Nat.strongRecOn generalizing calls with
  | ind idle ih =>
      subst hidle
      intro e hstack
      by_cases hblank : e.name = []
      · rw [evalCommand_blank hblank, expandCommand, if_pos hblank]
        simp [Except.map, Expanded.within, hstack]
      · rw [expandCommand, if_neg hblank]
        cases hcallee : reg.callee? e.name with
        | none =>
            rw [evalCommand_plain hcallee]
            simp [Except.map, Expanded.within]
        | some t =>
            simp only [expandCall_unfold hcallee]
            cases hpush : calls.push? { e with stack := calls.frames } with
            | none =>
                have hactive := CallStack.push?_eq_none.mp hpush
                rw [hsound] at hactive
                rw [evalCommand_active hblank hcallee hactive]
                rfl
            | some inner =>
                have hlt : idleTemplates reg inner.active < idleTemplates reg calls.active :=
                  idleTemplates_push_lt (show reg.callee? { e with stack := calls.frames }.name
                    = some t from hcallee) hpush
                have heval := ih _ hlt (hsound.push? hpush) rfl
                obtain ⟨hfree, rfl⟩ := CallStack.push?_eq_some hpush
                rw [hsound] at hfree
                rw [evalCommand_call hblank hcallee hfree]
                exact expandBody_eq_mapM (expandCall_calls reg reg.size) heval (by simp)
                  calls.frames t { e with stack := calls.frames }

/-- Outside every call a command of a file gives exactly what it stands for. -/
theorem expandFileCommand_eq_evalCommand (reg : Registry) {e : Expanded} (hstack : e.stack = []) :
    expandFileCommand reg e {} = (evalCommand reg [] e, {}) := by
  have heval := evaluating_expandCall reg (show CallStack.Sound {} from rfl) e hstack
  have hrestored := expandCommand_calls reg (expandCall_calls reg reg.size) e {}
  have hwithin : Expanded.within [] = id := by
    funext result
    rcases result with ⟨raw, file, stack⟩
    cases stack <;> rfl
  refine Prod.ext ?_ hrestored
  rw [← heval]
  show _ = Except.map (List.map (Expanded.within [])) _
  rw [hwithin, List.map_id_fun]
  show _ = Except.map id (expandFileCommand reg e {}).1
  cases (expandFileCommand reg e {}).1 <;> rfl

/-! ## The continuation of a run -/

namespace Evaluation

@[simp] theorem after_nil (ev : Evaluation) : ev.after [] = ev := rfl

theorem give_andThen (reg : Registry) (results : List Expanded) (next : Registry → Evaluation) :
    (give reg results).andThen next = (next reg).after results := rfl

/-- Going on with nothing changes nothing. -/
theorem andThen_give (ev : Evaluation) : (ev.andThen fun reg => give reg []) = ev := by
  rcases ev with ⟨results, _ | error, reg⟩
  · simp only [andThen, give, after, List.append_nil]
  · rfl

/-- Going on is associative. -/
theorem andThen_assoc (ev : Evaluation) (next last : Registry → Evaluation) :
    (ev.andThen next).andThen last = ev.andThen fun reg => (next reg).andThen last := by
  rcases ev with ⟨results, _ | error, reg⟩
  · simp only [andThen]
    cases hnext : (next reg).error with
    | none => simp only [after, hnext, List.append_assoc]
    | some error => simp only [after, hnext]
  · rfl

end Evaluation

/-- Evaluates the rest of every open file, the innermost first; `opened` names the open files. -/
def resume (fs : FileSystem) (o : Options) :
    List FileFrame → List Text → Registry → Evaluation
  | [], _, reg => .give reg []
  | frame :: outer, opened, reg =>
      (evalExpressions fs o opened frame.name frame.reader.rest.2 frame.reader.rest.1 reg).andThen
        (resume fs o outer opened.tail)

namespace Expander

/-- What a run has yet to give. -/
def outlook (x : Expander) : Evaluation :=
  (resume x.fs x.options x.files x.includes.opened x.templates).after x.pending

/-- A run between two results: no call is active and no open file has failed. -/
structure Ready (x : Expander) : Prop where
  calls : x.calls = {}
  readers : ∀ frame ∈ x.files, frame.reader.failed = none

/-- Carrying out an expression and then resuming the open files is to evaluate it and then resume
    them. -/
theorem Effect.resume {x y : Expander} {e : Expanded}
    {result : Except ExpansionError (List Expanded)} (h : x.Effect e result y)
    (hcalls : x.calls = {}) (hstack : e.stack = []) :
    (evalExpression x.fs x.options x.includes.opened e x.templates).andThen
        (LineScript.resume x.fs x.options x.files x.includes.opened) =
      (LineScript.resume y.fs y.options y.files y.includes.opened y.templates).behind
        y.templates result := by
  cases h with
  | registered hname hread hnew =>
      rw [evalExpression_define hname hread hnew]
      rfl
  | misdefined hname hfail =>
      rw [evalExpression, if_pos hname, hfail]
      rfl
  | opened hname htarget hclosed haccess =>
      rw [evalExpression_opened hname htarget hclosed haccess]
      rfl
  | untargeted hname htarget =>
      rw [evalExpression_unnamed hname htarget]
      rfl
  | cyclic hname htarget hopen =>
      rw [evalExpression_reopened hname htarget hopen]
      rfl
  | unopened hname htarget hclosed haccess =>
      rw [evalExpression_unopened hname htarget hclosed haccess]
      rfl
  | expanded hdefine hinclude hexpand =>
      rw [evalExpression_command hdefine hinclude]
      rw [hcalls, expandFileCommand_eq_evalCommand x.templates hstack] at hexpand
      obtain ⟨rfl, rfl⟩ := Prod.mk.inj hexpand
      cases evalCommand x.templates [] e with
      | error error => rfl
      | ok results => rfl

section Continuation

variable {x y : Expander} {frame : FileFrame} {outer : List FileFrame} {reader : Reader}

/-- A file that is read to its end has nothing more to give. -/
theorem outlook_of_end (hready : x.Ready) (hpending : x.pending = [])
    (hfiles : x.files = frame :: outer) (hread : frame.reader.read = (.ok none, reader)) :
    x.outlook = outlook { x with files := outer, includes := x.includes.pop } := by
  have hrest := Reader.rest_of_read_none (hready.readers frame (by simp [hfiles])) hread
  simp only [outlook, hpending, hfiles, LineScript.resume, hrest, evalExpressions]
  rfl

/-- A file that cannot be read on stops the run. -/
theorem outlook_of_error {error : SyntaxError} (hready : x.Ready) (hpending : x.pending = [])
    (hfiles : x.files = frame :: outer) (hread : frame.reader.read = (.error error, reader)) :
    x.outlook = .stop x.templates (.ofSyntax (x.options.displayPath frame.name) error) := by
  have hrest := Reader.rest_of_read_error (hready.readers frame (by simp [hfiles])) hread
  simp only [outlook, hpending, hfiles, LineScript.resume, hrest, evalExpressions]
  rfl

/-- An expression of the innermost file is carried out before all else that is ahead. -/
theorem outlook_of_read {raw : Expression} {result : Except ExpansionError (List Expanded)}
    (hready : x.Ready) (hpending : x.pending = []) (hfiles : x.files = frame :: outer)
    (hread : frame.reader.read = (.ok (some raw), reader))
    (hexec : execute { x with files := { frame with reader } :: outer }
      (.ofExpression raw (x.options.displayPath frame.name)) = (result, y)) :
    x.outlook = (LineScript.resume y.fs y.options y.files y.includes.opened y.templates).behind
      y.templates result := by
  have hrest := Reader.rest_of_read_some (hready.readers frame (by simp [hfiles])) hread
  rw [← (effect_of_execute hexec).resume hready.calls rfl]
  simp only [outlook, hpending, hfiles, LineScript.resume, hrest, Evaluation.after_nil]
  rw [evalExpressions, Evaluation.andThen_assoc]

/-- Nor does it make a file fail or leave a call active. -/
theorem Ready.carryOut {raw : Expression} {result : Except ExpansionError (List Expanded)}
    (hready : x.Ready) (hfiles : x.files = frame :: outer)
    (hread : frame.reader.read = (.ok (some raw), reader))
    (hexec : execute { x with files := { frame with reader } :: outer }
      (.ofExpression raw (x.options.displayPath frame.name)) = (result, y))
    (pending : List Expanded) : Ready { y with pending } := by
  have hreader : reader.failed = none :=
    Reader.ready_of_read_some (hready.readers frame (by simp [hfiles])) hread
  have houter : ∀ f ∈ { frame with reader } :: outer, f.reader.failed = none := by
    intro f hf
    rcases List.mem_cons.mp hf with rfl | hf
    · exact hreader
    · exact hready.readers f (by simp [hfiles, hf])
  cases effect_of_execute hexec with
  | opened hname htarget hclosed haccess =>
      refine ⟨hready.calls, ?_⟩
      intro f hf
      rcases List.mem_cons.mp hf with rfl | hf
      · rfl
      · exact houter f hf
  | expanded hdefine hinclude hexpand =>
      refine ⟨?_, houter⟩
      have hcalls := congrArg Prod.snd hexpand
      rw [hready.calls] at hcalls
      exact hcalls.symm.trans (expandCommand_calls _ (expandCall_calls _ _) _ _)
  | registered => exact ⟨hready.calls, houter⟩
  | misdefined => exact ⟨hready.calls, houter⟩
  | untargeted => exact ⟨hready.calls, houter⟩
  | cyclic => exact ⟨hready.calls, houter⟩
  | unopened => exact ⟨hready.calls, houter⟩

end Continuation

/-- An outcome of looking for the next result that agrees with what the run has yet to give. -/
def Foreseen (x : Expander) : Except ExpansionError (Option Expanded) × Expander → Prop
  | (.ok (some e), y) => y.Ready ∧ y.status = x.status ∧ x.outlook = y.outlook.after [e]
  | (.ok none, y) => x.outlook = .give y.templates []
  | (.error error, y) => x.outlook = .stop y.templates error

/-- What has the same outlook in the same state of life foresees the same. -/
theorem Foreseen.of_eq {x y : Expander}
    {outcome : Except ExpansionError (Option Expanded) × Expander} (h : y.Foreseen outcome)
    (hstatus : y.status = x.status) (hsame : x.outlook = y.outlook) : x.Foreseen outcome := by
  rcases outcome with ⟨_ | _ | e, z⟩
  · exact hsame.trans h
  · exact hsame.trans h
  · obtain ⟨hready, hlife, hnext⟩ := h
    exact ⟨hready, hlife.trans hstatus, hsame.trans hnext⟩

/-- The next result is the first of what a run has yet to give. -/
theorem foreseen_advance {x : Expander} (hready : x.Ready) : x.Foreseen x.advance := by
  fun_induction advance x with
  | case1 x e pending hpending =>
      refine ⟨⟨hready.calls, hready.readers⟩, rfl, ?_⟩
      rw [outlook, hpending]
      rfl
  | case2 x hpending hfiles =>
      show x.outlook = _
      rw [outlook, hpending, hfiles]
      rfl
  | case3 x hpending frame outer hfiles error reader hread =>
      exact outlook_of_error hready hpending hfiles hread
  | case4 x hpending frame outer hfiles reader hread ih =>
      refine (ih ⟨hready.calls, ?_⟩).of_eq rfl (outlook_of_end hready hpending hfiles hread)
      intro f hf
      exact hready.readers f (by simp [hfiles, hf])
  | case5 x hpending frame outer hfiles raw reader hread e error y hexec =>
      exact outlook_of_read hready hpending hfiles hread hexec
  | case6 x hpending frame outer hfiles raw reader hread e y hexec ih =>
      obtain ⟨-, -, hwaits, hstatus⟩ := (effect_of_execute hexec).unchanged
      refine (ih (hready.carryOut hfiles hread hexec y.pending)).of_eq hstatus ?_
      rw [outlook_of_read hready hpending hfiles hread hexec, outlook, hwaits, hpending]
      rfl
  | case7 x hpending frame outer hfiles raw reader hread e first pending y hexec =>
      obtain ⟨-, -, -, hstatus⟩ := (effect_of_execute hexec).unchanged
      refine ⟨hready.carryOut hfiles hread hexec pending, hstatus, ?_⟩
      exact outlook_of_read hready hpending hfiles hread hexec

/-- So is what a run that goes on hands out. -/
theorem foreseen_read {x : Expander} (hready : x.Ready) (hrunning : x.status = .running) :
    x.Foreseen x.read := by
  have hnext := foreseen_advance hready
  rw [read, hrunning]
  rcases hadvance : x.advance with ⟨_ | _ | e, y⟩
  · rw [hadvance] at hnext; exact hnext
  · rw [hadvance] at hnext; exact hnext
  · rw [hadvance] at hnext; exact hnext

/-- A run gives all that it has yet to give, and nothing else. -/
theorem drain_eq_outlook {x : Expander} (hready : x.Ready) (hrunning : x.status = .running) :
    x.drain.1 = x.outlook.results ∧ x.drain.2.1 = x.outlook.error ∧
      x.drain.2.2.templates = x.outlook.templates := by
  have hnext := foreseen_read hready hrunning
  fun_induction drain x with
  | case1 x y hread =>
      rw [hread] at hnext
      have hgive : x.outlook = .give y.templates [] := hnext
      rw [hgive]
      exact ⟨rfl, rfl, rfl⟩
  | case2 x error y hread =>
      rw [hread] at hnext
      have hstop : x.outlook = .stop y.templates error := hnext
      rw [hstop]
      exact ⟨rfl, rfl, rfl⟩
  | case3 x e y hread es error z hdrain ih =>
      rw [hread] at hnext
      obtain ⟨hready', hstatus, hfirst⟩ := hnext
      have hrunning' := hstatus.trans hrunning
      obtain ⟨hes, herror, htemplates⟩ :=
        ih hready' hrunning' (foreseen_read hready' hrunning')
      rw [hdrain] at hes herror htemplates
      rw [hfirst]
      exact ⟨congrArg (e :: ·) hes, herror, htemplates⟩

section Start

variable {fs : FileSystem} {o : Options} {script : Text}

/-- A script that opens is the only open file at the start. -/
theorem start_of_access {stream : Stream} (haccess : fs.access script = .ok stream) :
    start fs o script =
      { fs, options := o, files := [⟨script, .ofStream stream⟩], includes := ⟨[script]⟩ } := by
  rw [start, haccess]

/-- At the start a run is between two results. -/
theorem ready_start {stream : Stream} (haccess : fs.access script = .ok stream) :
    (start fs o script).Ready := by
  rw [start_of_access haccess]
  refine ⟨rfl, ?_⟩
  intro f hf
  rw [List.mem_singleton.mp hf]
  rfl

/-- At the start a run has the whole script to give. -/
theorem outlook_start {stream : Stream} (haccess : fs.access script = .ok stream) :
    (start fs o script).outlook = evaluate fs o script := by
  rw [start_of_access haccess, evaluate, haccess]
  exact Evaluation.andThen_give _

/-- So a script that opens gives what evaluating it gives. -/
theorem drain_start_of_access {stream : Stream} (haccess : fs.access script = .ok stream) :
    (start fs o script).drain.1 = (evaluate fs o script).results ∧
      (start fs o script).drain.2.1 = (evaluate fs o script).error ∧
      (start fs o script).drain.2.2.templates = (evaluate fs o script).templates := by
  have hrunning : (start fs o script).status = .running := by rw [start_of_access haccess]
  rw [← outlook_start haccess]
  exact drain_eq_outlook (ready_start haccess) hrunning

/-- A script that does not open gives its error at once. -/
theorem drain_start_of_error {error : AccessError} (haccess : fs.access script = .error error) :
    (start fs o script).drain =
      ([], some ⟨.atLine (o.displayPath script) 1, .unopened script error⟩,
        start fs o script) := by
  rw [start, haccess, drain]
  rfl

end Start

/-- The expander computes the evaluator: for every file system, every setting and every script,
    the results that it hands out until the end or an error, that error, and the templates it has
    registered by then are those of evaluating the script in one piece. -/
theorem drain_start_eq_evaluate (fs : FileSystem) (o : Options) (script : Text) :
    (start fs o script).drain.1 = (evaluate fs o script).results ∧
      (start fs o script).drain.2.1 = (evaluate fs o script).error ∧
      (start fs o script).drain.2.2.templates = (evaluate fs o script).templates := by
  cases haccess : fs.access script with
  | error error =>
      rw [drain_start_of_error haccess, evaluate, haccess, start, haccess]
      exact ⟨rfl, rfl, rfl⟩
  | ok stream =>
      have hrunning : (start fs o script).status = .running := by rw [start_of_access haccess]
      rw [← outlook_start haccess]
      exact drain_eq_outlook (ready_start haccess) hrunning

end Expander

/-- Expanding a script to its end gives what evaluating it gives. -/
theorem expandScript_eq_evaluate (fs : FileSystem) (o : Options) (script : Text) :
    expandScript fs o script = ((evaluate fs o script).results, (evaluate fs o script).error) := by
  cases haccess : fs.access script with
  | error error =>
      rw [expandScript, Expander.drain_start_of_error haccess, evaluate, haccess]
      rfl
  | ok stream =>
      obtain ⟨hresults, herror, -⟩ := Expander.drain_start_of_access (o := o) haccess
      rw [← hresults, ← herror]
      rfl

end LineScript
