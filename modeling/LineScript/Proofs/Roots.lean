import LineScript.Proofs.Likeness

/-!
# The root only shows

The root under which files are shown goes into every expression, every template and every error,
and the user may change it between two results. It decides nothing. This file runs one script
twice, under roots that differ and change at different moments, and compares what is read.

* `Comparison`: the roots of the two runs, and how the two texts that show one file compare.
* `Expanded.Matches`: expressions that differ in the files they show, with all their calls.
* `Mirrors`: the states of two runs that differ in what they show. Every step of one is a step of
  the other (`Mirrors.execute`, `Mirrors.advance`), and a change of either root changes nothing
  (`Mirrors.setRoot_first`).
-/

namespace LineScript

/-! ## Showing files -/

/-- The roots that each of two runs may have, and how the texts that show one file in both
    compare. -/
structure Comparison where
  first : Text → Prop
  second : Text → Prop
  shown : Text → Text → Prop
  apt : ∀ (o o' : Options) (name : Text), first o.root → second o'.root →
    shown (o.displayPath name) (o'.displayPath name)

/-- Two texts that show the same file, each under some root. -/
def ShowSame (file file' : Text) : Prop :=
  ∃ (o o' : Options) (name : Text), file = o.displayPath name ∧ file' = o'.displayPath name

namespace Comparison

/-- Any roots show the same files. -/
def anyRoots : Comparison where
  first := fun _ => True
  second := fun _ => True
  shown := ShowSame
  apt := fun o o' name _ _ => ⟨o, o', name, rfl, rfl⟩

/-- One root for the first run and none for the second: what the first shows is what the second
    shows, behind the root. -/
def behindRoot (root : Text) : Comparison where
  first := (· = root)
  second := (· = [])
  shown := fun file file' => file = Options.displayPath { root } file'
  apt := by
    intro o o' name hfirst hsecond
    have hname : o'.displayPath name = name := if_pos hsecond
    rw [hname, Options.displayPath, Options.displayPath, hfirst]

end Comparison

/-! ## What is shown -/

/-- Expressions that differ in the files they show, and so do the calls that led to them. -/
inductive Expanded.Matches (shown : Text → Text → Prop) : Expanded → Expanded → Prop where
  | intro {e e' : Expanded} (hsaid : e.toExpression = e'.toExpression)
      (hfile : shown e.file e'.file)
      (hstack : List.Forall₂ (Expanded.Matches shown) e.stack e'.stack) : Matches shown e e'

/-- Templates that say the same and whose definitions match. -/
structure Template.Matches (shown : Text → Text → Prop) (t t' : Template) : Prop where
  outline : t.outline = t'.outline
  source : t.source.Matches shown t'.source

/-- Registries whose templates match under every name. -/
def Registry.Matches (shown : Text → Text → Prop) (reg reg' : Registry) : Prop :=
  ∀ name, Option.Rel (Template.Matches shown) (reg.get? name) (reg'.get? name)

/-- Causes of one kind. -/
def Cause.SameKind (cause cause' : Cause) : Prop := cause.kind = cause'.kind

/-- Errors of one kind at expressions that match. -/
structure ExpansionError.Matches (shown : Text → Text → Prop) (error error' : ExpansionError) :
    Prop where
  kind : error.cause.kind = error'.cause.kind
  expr : error.expr.Matches shown error'.expr

/-- Two runs that both go on, are both at the end, or were both ended by errors that match. -/
inductive Status.Matches (shown : Text → Text → Prop) : Status → Status → Prop where
  | running : Matches shown .running .running
  | finished : Matches shown .finished .finished
  | poisoned {error error' : ExpansionError} (herror : error.Matches shown error') :
      Matches shown (.poisoned error) (.poisoned error')

section Matches

variable {shown : Text → Text → Prop}

theorem Expanded.Matches.file {e e' : Expanded} (h : e.Matches shown e') :
    shown e.file e'.file := by
  cases h with
  | intro hsaid hfile hstack => exact hfile

/-- Expressions of files match if their files do. -/
theorem Expanded.matches_ofExpression (raw : Expression) {file file' : Text}
    (h : shown file file') :
    (Expanded.ofExpression raw file).Matches shown (Expanded.ofExpression raw file') :=
  .intro rfl h .nil

/-- Malformed lines of files match if the files do. -/
theorem ExpansionError.matches_ofSyntax (error : SyntaxError) {file file' : Text}
    (h : shown file file') :
    (ExpansionError.ofSyntax file error).Matches shown (ExpansionError.ofSyntax file' error) :=
  ⟨rfl, .intro rfl h .nil⟩

/-- Calls that match are calls of the same templates. -/
theorem activeNames_eq_of_matches {frames frames' : List Expanded}
    (h : List.Forall₂ (Expanded.Matches shown) frames frames') :
    activeNames frames = activeNames frames' := by
  rw [activeNames, activeNames]
  congr 1
  induction h with
  | nil => rfl
  | cons hframe _ ih =>
      cases hframe with
      | intro hsaid hfile hstack =>
          rw [List.map_cons, List.map_cons, ih]
          exact congrArg (·.name :: _) hsaid

namespace Registry

variable {reg reg' : Registry} {t t' : Template} {name : Text}

theorem Matches.alike (h : reg.Matches shown reg') : reg.Alike reg' := by
  intro name
  have hfound := h name
  generalize reg.get? name = found, reg'.get? name = found' at hfound ⊢
  cases hfound with
  | some ht => exact congrArg some ht.outline
  | none => rfl

theorem Matches.callee?_some (h : reg.Matches shown reg') (hcallee : reg.callee? name = some t) :
    ∃ t', reg'.callee? name = some t' ∧ t.Matches shown t' := by
  obtain ⟨t', hcallee', -⟩ := h.alike.callee?_some hcallee
  have hfound := h name
  rw [(get?_of_callee? hcallee).1, (get?_of_callee? hcallee').1] at hfound
  cases hfound with
  | some ht => exact ⟨t', hcallee', ht⟩

/-- A definition is taken by both, and leaves them matching, or by neither. -/
theorem Matches.define (h : reg.Matches shown reg') (ht : t.Matches shown t') :
    Concur (Registry.Matches shown) Cause.SameKind (reg.define t) (reg'.define t') := by
  have hname : t.name = t'.name := congrArg (·.1) ht.outline
  have hfound := h t.name
  rw [Registry.define, Registry.define, ← hname]
  generalize reg.get? t.name = found, reg'.get? t.name = found' at hfound
  cases hfound with
  | some hprevious => exact rfl
  | none =>
      intro name
      have hearlier := h name
      rw [get?, get?] at hearlier ⊢
      rw [List.find?_append, List.find?_append]
      generalize reg.templates.find? _ = found, reg'.templates.find? _ = found' at hearlier
      cases hearlier with
      | some hearlier => exact .some hearlier
      | none =>
          by_cases hthis : t'.name = name
          · simpa [hname, hthis] using ht
          · simp [hname, hthis]

end Registry

/-! ## Commands -/

/-- Definitions that match are read as templates that match, or refused for the same reason. -/
theorem Template.matches_ofDefinition {e e' : Expanded} (h : e.Matches shown e') :
    Concur (Template.Matches shown) Cause.SameKind (Template.ofDefinition e)
      (Template.ofDefinition e') := by
  have hbody : e.body = e'.body := by
    cases h with
    | intro hsaid hfile hstack => exact congrArg (·.body) hsaid
  rw [Template.ofDefinition_congr hbody]
  cases hread : Template.ofDefinition e with
  | error cause => exact rfl
  | ok t => exact ⟨rfl, Template.source_of_ofDefinition hread ▸ h⟩

theorem TextErrors.matches {t t' : Template} {site site' : Expanded}
    {error error' : ExpansionError} (h : TextErrors t t' site site' error error')
    (ht : t.Matches shown t') (hsite : site.Matches shown site') : error.Matches shown error' := by
  cases h with
  | arguments => exact ⟨rfl, hsite⟩
  | parameter => exact ⟨rfl, ht.source⟩
  | definition => exact ⟨rfl, hsite⟩
  | malformed error => exact ExpansionError.matches_ofSyntax error ht.source.file

/-- Commands that match stand for results that match, or fail with errors that match. -/
theorem evalCommand_matches {reg reg' : Registry} {frames frames' : List Expanded}
    {e e' : Expanded} (hreg : reg.Matches shown reg')
    (hframes : List.Forall₂ (Expanded.Matches shown) frames frames')
    (hsaid : e.toExpression = e'.toExpression) (hfile : shown e.file e'.file) :
    Concur (List.Forall₂ (Expanded.Matches shown)) (ExpansionError.Matches shown)
      (evalCommand reg frames e) (evalCommand reg' frames' e') := by
  induction frames, e using evalCommand_induction reg generalizing frames' e' with
  | self frames e hself =>
      have hname : e.name = e'.name := congrArg (·.name) hsaid
      have hself' : e'.name = [] ∨ reg'.callee? e'.name = none := by
        rw [← hname]
        exact hself.imp_right hreg.alike.callee?_none
      rw [evalCommand_self hself, evalCommand_self hself']
      exact .cons (.intro hsaid hfile hframes) .nil
  | active frames e t hne hcallee hopen =>
      have hname : e.name = e'.name := congrArg (·.name) hsaid
      obtain ⟨t', hcallee', -⟩ := hreg.callee?_some hcallee
      have hopen' : (activeNames frames').contains e'.name = true := by
        rw [← activeNames_eq_of_matches hframes, ← hname]
        exact hopen
      rw [evalCommand_active hne hcallee hopen,
        evalCommand_active (hname ▸ hne) (hname ▸ hcallee') hopen']
      exact ⟨rfl, .intro hsaid hfile hframes⟩
  | call frames e t hne hcallee hidle ih =>
      obtain ⟨t', hcallee', ht⟩ := hreg.callee?_some hcallee
      have hsite : Expanded.Matches shown { e with stack := frames } { e' with stack := frames' } :=
        .intro hsaid hfile hframes
      refine concur_evalCommand_call hne hcallee hcallee' ht.outline hidle
        (activeNames_eq_of_matches hframes) (congrArg Expression.content hsaid)
        (fun _ _ herrors => herrors.matches ht hsite) ?_
      intro inner inner' hinner hfrom hfrom'
      refine ih inner (List.rel_append hframes (.cons hsite .nil)) hinner ?_
      rw [hfrom, hfrom']
      exact ht.source.file

end Matches

/-! ## States -/

namespace Expander

/-- Two runs in the same state, except for what they show and for the roots under which they
    do. -/
structure Mirrors (c : Comparison) (x x' : Expander) : Prop where
  fs : x.fs = x'.fs
  extension : x.options.extension = x'.options.extension
  first : c.first x.options.root
  second : c.second x'.options.root
  templates : x.templates.Matches c.shown x'.templates
  files : x.files = x'.files
  includes : x.includes = x'.includes
  calls : x.calls = {}
  calls' : x'.calls = {}
  pending : List.Forall₂ (Expanded.Matches c.shown) x.pending x'.pending
  status : x.status.Matches c.shown x'.status

/-- What one expression does in two runs: its results match, or the errors do, and the states
    after it mirror each other. -/
inductive Abreast (c : Comparison) : Except ExpansionError (List Expanded) × Expander →
    Except ExpansionError (List Expanded) × Expander → Prop where
  | given {results results' : List Expanded} {y y' : Expander}
      (hresults : List.Forall₂ (Expanded.Matches c.shown) results results')
      (hstates : Mirrors c y y') : Abreast c (.ok results, y) (.ok results', y')
  | failed {error error' : ExpansionError} {y y' : Expander} (herror : error.Matches c.shown error')
      (hstates : Mirrors c y y') : Abreast c (.error error, y) (.error error', y')

/-- Two reads that agree: both are at the end, or give expressions that match, or errors that
    do. -/
inductive SameAnswer (shown : Text → Text → Prop) :
    Except ExpansionError (Option Expanded) → Except ExpansionError (Option Expanded) → Prop where
  | ended : SameAnswer shown (.ok none) (.ok none)
  | expression {e e' : Expanded} (he : e.Matches shown e') :
      SameAnswer shown (.ok (some e)) (.ok (some e'))
  | error {error error' : ExpansionError} (herror : error.Matches shown error') :
      SameAnswer shown (.error error) (.error error')

section Steps

variable {c : Comparison} {x x' : Expander} {e e' : Expanded}

/-- A run starts the same under every root, also if its script does not open. -/
theorem mirrors_start (fs : FileSystem) (extension : Option Text) (script : Text)
    {root root' : Text} (hfirst : c.first root) (hsecond : c.second root') :
    Mirrors c (start fs ⟨root, extension⟩ script) (start fs ⟨root', extension⟩ script) := by
  rw [start, start]
  cases fs.access script with
  | ok stream =>
      exact ⟨rfl, rfl, hfirst, hsecond, fun _ => .none, rfl, rfl, rfl, rfl, .nil, .running⟩
  | error error =>
      have hshown := c.apt ⟨root, extension⟩ ⟨root', extension⟩ script hfirst hsecond
      exact ⟨rfl, rfl, hfirst, hsecond, fun _ => .none, rfl, rfl, rfl, rfl, .nil,
        .poisoned ⟨rfl, .intro rfl hshown .nil⟩⟩

/-- The first run may be given any of its roots. -/
theorem Mirrors.setRoot_first (h : Mirrors c x x') {root : Text} (hroot : c.first root) :
    Mirrors c (x.setRoot root) x' :=
  { h with first := hroot }

/-- So may the second. -/
theorem Mirrors.setRoot_second (h : Mirrors c x x') {root : Text} (hroot : c.second root) :
    Mirrors c x (x'.setRoot root) :=
  { h with second := hroot }

/-- A definition is taken in both or in neither. -/
theorem Mirrors.define (h : Mirrors c x x') (he : e.Matches c.shown e') :
    Concur (Mirrors c) Cause.SameKind (x.define e) (x'.define e') := by
  refine (Template.matches_ofDefinition he).bind fun t t' ht => ?_
  refine (h.templates.define ht).bind fun reg reg' hreg => ?_
  exact { h with templates := hreg }

/-- A splice opens the same file in both, or fails for the same reason. -/
theorem Mirrors.splice (h : Mirrors c x x') (hbody : e.body = e'.body) :
    Concur (Mirrors c) Cause.SameKind (x.splice e) (x'.splice e') := by
  have hsuffix : x.options.suffix = x'.options.suffix := congrArg (·.getD []) h.extension
  have htarget : includeTarget x.options e.body = includeTarget x'.options e'.body := by
    simp only [includeTarget, hsuffix, hbody]
  rw [Expander.splice, Expander.splice, htarget]
  cases includeTarget x'.options e'.body with
  | error cause => exact rfl
  | ok file =>
      simp only [bind, Except.bind, h.includes, h.fs]
      cases x'.includes.push? file with
      | none => exact rfl
      | some includes =>
          simp only
          cases x'.fs.access file with
          | error error => exact rfl
          | ok stream =>
              exact { h with fs := rfl, includes := rfl, files := congrArg (_ :: ·) h.files }

/-- Results that match, or errors that do, with states that mirror each other. -/
theorem Abreast.of_concur {result result' : Except ExpansionError (List Expanded)}
    (h : Concur (List.Forall₂ (Expanded.Matches c.shown)) (ExpansionError.Matches c.shown) result
      result') (hstates : Mirrors c x x') : Abreast c (result, x) (result', x') := by
  cases result with
  | error error =>
      cases result' with
      | error error' => exact .failed h hstates
      | ok results' => exact h.elim
  | ok results =>
      cases result' with
      | error error' => exact h.elim
      | ok results' => exact .given h hstates

/-- What a directive makes of a run goes the same way in both. -/
theorem Mirrors.directive (h : Mirrors c x x') (he : e.Matches c.shown e')
    (m m' : Except Cause Expander) :
    Concur (Mirrors c) Cause.SameKind m m' →
      Abreast c
        (match m with
          | .ok y => (.ok [], y)
          | .error cause => (.error ⟨e, cause⟩, x))
        (match m' with
          | .ok y' => (.ok [], y')
          | .error cause => (.error ⟨e', cause⟩, x')) := by
  intro hm
  cases m with
  | error cause =>
      cases m' with
      | error cause' => exact .failed ⟨hm, he⟩ h
      | ok y' => exact hm.elim
  | ok y =>
      cases m' with
      | error cause' => exact hm.elim
      | ok y' => exact .given .nil hm

/-- Carrying out an expression of a file goes the same way in both. -/
theorem Mirrors.execute (h : Mirrors c x x') (raw : Expression) {file file' : Text}
    (hfile : c.shown file file') :
    Abreast c (x.execute (.ofExpression raw file)) (x'.execute (.ofExpression raw file')) := by
  have he := Expanded.matches_ofExpression raw hfile
  rw [Expander.execute, Expander.execute]
  by_cases hdefine : (Expanded.ofExpression raw file).name = defineWord
  · have hdefine' : (Expanded.ofExpression raw file').name = defineWord := hdefine
    rw [if_pos hdefine, if_pos hdefine']
    exact h.directive he _ _ (h.define he)
  · have hdefine' : (Expanded.ofExpression raw file').name ≠ defineWord := hdefine
    rw [if_neg hdefine, if_neg hdefine']
    by_cases hinclude : (Expanded.ofExpression raw file).name = includeWord
    · have hinclude' : (Expanded.ofExpression raw file').name = includeWord := hinclude
      rw [if_pos hinclude, if_pos hinclude']
      exact h.directive he _ _ (h.splice rfl)
    · have hinclude' : (Expanded.ofExpression raw file').name ≠ includeWord := hinclude
      rw [if_neg hinclude, if_neg hinclude', h.calls, h.calls',
        expandFileCommand_eq_evalCommand _ rfl, expandFileCommand_eq_evalCommand _ rfl]
      exact .of_concur (evalCommand_matches h.templates .nil rfl hfile)
        { h with calls := rfl, calls' := rfl }

/-- Looking for the next result goes the same way in both. -/
theorem Mirrors.advance {x x' : Expander} (h : Mirrors c x x') :
    SameAnswer c.shown x.advance.1 x'.advance.1 ∧ Mirrors c x.advance.2 x'.advance.2 := by
  cases hpending : x.pending with
  | cons e pending =>
      have hwaits := h.pending
      rw [hpending] at hwaits
      obtain ⟨e', pending', he, hrest, hpending'⟩ := List.forall₂_cons_left_iff.mp hwaits
      rw [advance_handOut hpending, advance_handOut hpending']
      exact ⟨.expression he, { h with pending := hrest }⟩
  | nil =>
      have hpending' : x'.pending = [] := List.forall₂_nil_left_iff.mp (hpending ▸ h.pending)
      cases hfiles : x.files with
      | nil =>
          rw [advance_finish hpending hfiles, advance_finish hpending' (h.files ▸ hfiles)]
          exact ⟨.ended, h⟩
      | cons frame outer =>
          have hshown := c.apt x.options x'.options frame.name h.first h.second
          rw [advance_read hpending hfiles, advance_read hpending' (h.files ▸ hfiles)]
          rcases hread : frame.reader.read with ⟨error | _ | raw, reader⟩
          · exact ⟨.error (ExpansionError.matches_ofSyntax error hshown), { h with files := rfl }⟩
          · exact Mirrors.advance
              { h with files := rfl, includes := congrArg IncludeStack.pop h.includes }
          · have hreadOn : Mirrors c { x with files := { frame with reader } :: outer }
                { x' with files := { frame with reader } :: outer } := { h with files := rfl }
            have hstep := hreadOn.execute raw hshown
            obtain ⟨result, y, hexec⟩ : ∃ result y,
                Expander.execute { x with files := { frame with reader } :: outer }
                  (.ofExpression raw (x.options.displayPath frame.name)) = (result, y) :=
              ⟨_, _, rfl⟩
            obtain ⟨result', y', hexec'⟩ : ∃ result' y',
                Expander.execute { x' with files := { frame with reader } :: outer }
                  (.ofExpression raw (x'.options.displayPath frame.name)) = (result', y') :=
              ⟨_, _, rfl⟩
            rw [hexec, hexec'] at hstep
            simp only [hexec, hexec']
            cases hstep with
            | failed herror hstates => exact ⟨.error herror, hstates⟩
            | given hresults hstates => exact Mirrors.advance { hstates with pending := hresults }
termination_by x.work
decreasing_by
  · simp only [work, hfiles, filesWork, IncludeStack.pop]
    omega
  · have hlt := work_execute_lt hfiles hread hexec
    exact hlt

/-- Handing it out goes the same way in both. -/
theorem Mirrors.read (h : Mirrors c x x') :
    SameAnswer c.shown x.read.1 x'.read.1 ∧ Mirrors c x.read.2 x'.read.2 := by
  obtain ⟨hanswer, hstates⟩ := h.advance
  have hstatus := h.status
  rw [Expander.read, Expander.read]
  generalize x.status = status, x'.status = status' at hstatus ⊢
  cases hstatus with
  | poisoned herror => exact ⟨.error herror, h⟩
  | finished => exact ⟨.ended, h⟩
  | running =>
      generalize x.advance = r, x'.advance = r' at hanswer hstates ⊢
      obtain ⟨answer, y⟩ := r
      obtain ⟨answer', y'⟩ := r'
      cases hanswer with
      | ended => exact ⟨.ended, { hstates with status := .finished }⟩
      | expression he => exact ⟨.expression he, hstates⟩
      | error herror => exact ⟨.error herror, { hstates with status := .poisoned herror }⟩

end Steps

/-! ## Runs -/

/-- What a user asks of a run: the next result, or another root. -/
inductive Request where
  | read
  | setRoot (root : Text)
deriving DecidableEq, Repr, Inhabited

/-- What the reads among some requests give. -/
def answers (x : Expander) : List Request → List (Except ExpansionError (Option Expanded))
  | [] => []
  | .read :: requests => x.read.1 :: answers x.read.2 requests
  | .setRoot root :: requests => answers (x.setRoot root) requests

/-- Two runs that mirror each other answer the same number of reads alike, whenever their roots
    are changed. -/
theorem Mirrors.answers {c : Comparison} {x x' : Expander} (h : Mirrors c x x')
    {requests requests' : List Request} (hreads : requests.count .read = requests'.count .read)
    (hfirst : ∀ root, .setRoot root ∈ requests → c.first root)
    (hsecond : ∀ root, .setRoot root ∈ requests' → c.second root) :
    List.Forall₂ (SameAnswer c.shown) (x.answers requests) (x'.answers requests') := by
  match requests, requests' with
  | .setRoot root :: requests, requests' =>
      rw [List.count_cons_of_ne (by simp)] at hreads
      show List.Forall₂ _ ((x.setRoot root).answers requests) _
      exact Mirrors.answers (h.setRoot_first (hfirst root List.mem_cons_self)) hreads
        (fun root hroot => hfirst root (List.mem_cons_of_mem _ hroot)) hsecond
  | requests, .setRoot root :: requests' =>
      rw [List.count_cons_of_ne (by simp)] at hreads
      show List.Forall₂ _ _ ((x'.setRoot root).answers requests')
      exact Mirrors.answers (h.setRoot_second (hsecond root List.mem_cons_self)) hreads hfirst
        fun root hroot => hsecond root (List.mem_cons_of_mem _ hroot)
  | [], [] => exact .nil
  | .read :: requests, .read :: requests' =>
      rw [List.count_cons_self, List.count_cons_self] at hreads
      obtain ⟨hanswer, hstates⟩ := h.read
      refine .cons hanswer (Mirrors.answers hstates (Nat.succ.inj hreads) ?_ ?_)
      · exact fun root hroot => hfirst root (List.mem_cons_of_mem _ hroot)
      · exact fun root hroot => hsecond root (List.mem_cons_of_mem _ hroot)
  | [], .read :: requests' => simp at hreads
  | .read :: requests, [] => simp at hreads
termination_by requests.length + requests'.length

/-- The root only shows. For every file system, extension and script, let two runs be given any
    requests with the same number of reads, from roots of their own and with roots of their own at
    any moments. Read by read both are at the end, or both give expressions that are equal but for
    the files they show, with equally many calls that are so one by one, or both give errors of one
    kind at expressions that are so; and what they show in one place is the same file. If the first
    run has one root throughout and the second has none, then every file that the first shows is
    what the second shows in its place, shown under the root. -/
theorem answers_root (fs : FileSystem) (extension : Option Text) (script root root' : Text)
    {requests requests' : List Request}
    (hreads : requests.count .read = requests'.count .read) :
    let answers₁ := (start fs ⟨root, extension⟩ script).answers requests
    let answers₂ := (start fs ⟨root', extension⟩ script).answers requests'
    List.Forall₂ (SameAnswer ShowSame) answers₁ answers₂ ∧
    ((∀ r, .setRoot r ∈ requests → r = root) → root' = [] →
      (∀ r, .setRoot r ∈ requests' → r = []) →
      List.Forall₂ (SameAnswer fun file file' => file = Options.displayPath { root } file')
        answers₁ answers₂) := by
  constructor
  · have hstart : Mirrors .anyRoots (start fs ⟨root, extension⟩ script)
        (start fs ⟨root', extension⟩ script) := mirrors_start fs extension script trivial trivial
    exact hstart.answers hreads (fun _ _ => trivial) fun _ _ => trivial
  · intro hfirst hnone hsecond
    have hstart : Mirrors (.behindRoot root) (start fs ⟨root, extension⟩ script)
        (start fs ⟨root', extension⟩ script) := mirrors_start fs extension script rfl hnone
    exact hstart.answers hreads hfirst hsecond

/-- A call in a spliced file, a command behind it and a call that fails, read under the root `r/`
    and under none. -/
theorem answers_root_spliced :
    let fs : FileSystem := .ofList [("s".toList, .ok (.ofText "include t\nsay 1\na\n".toList)),
      ("t".toList, .ok (.ofText "define a x\n\tsay $x\na 2\n".toList))]
    let answers₁ := (start fs ⟨"r/".toList, none⟩ "s".toList).answers
      [.read, .setRoot "r/".toList, .read, .read]
    let answers₂ := (start fs ⟨[], none⟩ "s".toList).answers [.setRoot [], .read, .read, .read]
    answers₁.map (·.toOption.join.map (·.file)) =
      [some "r/t".toList, some "r/s".toList, none] ∧
    List.Forall₂ (SameAnswer ShowSame) answers₁ answers₂ ∧
    List.Forall₂
      (SameAnswer fun file file' => file = Options.displayPath { root := "r/".toList } file')
      answers₁ answers₂ := by
  intro fs answers₁ answers₂
  have hroot : ∀ r, .setRoot r ∈ [Request.read, .setRoot "r/".toList, .read, .read] →
      r = "r/".toList := by
    intro r hr
    simpa using hr
  have hnone : ∀ r, .setRoot r ∈ [Request.setRoot [], .read, .read, .read] → r = [] := by
    intro r hr
    simpa using hr
  have hreads : [Request.read, .setRoot "r/".toList, .read, .read].count .read =
      [Request.setRoot [], .read, .read, .read].count .read := by decide
  obtain ⟨hsame, hbehind⟩ := answers_root fs none "s".toList "r/".toList [] hreads
  have hfiles : answers₁.map (·.toOption.join.map (·.file)) =
      [some "r/t".toList, some "r/s".toList, none] := by decide +kernel
  exact ⟨hfiles, hsame, hbehind hroot rfl hnone⟩

end Expander

end LineScript
