import LineScript.Proofs.Chains
import LineScript.Proofs.Registering
import Mathlib.Data.List.Forall2

/-!
# Places do not matter

Every expression carries the file and the line it was read from, templates carry the expression
that defines them, and errors print all of it. None of it decides what happens. This file compares
two evaluations whose expressions and templates say the same in different places.

A command goes the same way in both: `evalCommand_alike` relates its results, and its errors if it
fails. Its step from a call to the lines of a text, `concur_evalCommand_call`, is the same for every
way to compare results and errors. For the expressions of files only one direction holds, because
they may be spliced where other files are open: with fewer open files, what met no error meets none
(`evalExpressions_alike`).
-/

namespace LineScript

/-! ## What is said -/

/-- What an expression says, wherever it stands. -/
def Expression.content (e : Expression) : Text × Text × Text := (e.comment, e.name, e.body)

/-- What a template says, wherever it is defined. -/
def Template.outline (t : Template) : Text × List Text × Text := (t.name, t.params, t.body)

/-- Results that say the same. -/
def SameContent (rs rs' : List Expanded) : Prop := rs.map (·.content) = rs'.map (·.content)

theorem sameContent_iff {rs rs' : List Expanded} :
    SameContent rs rs' ↔ List.Forall₂ (fun r r' => r.content = r'.content) rs rs' := by
  rw [SameContent, ← List.forall₂_eq_eq_eq, List.forall₂_map_left_iff, List.forall₂_map_right_iff]

/-- Errors of the same kind. -/
def SameKind (error error' : ExpansionError) : Prop := error.cause.kind = error'.cause.kind

namespace Registry

/-- Registries that say the same under every name. -/
def Alike (reg reg' : Registry) : Prop :=
  ∀ name, (reg.get? name).map Template.outline = (reg'.get? name).map Template.outline

variable {reg reg' last : Registry} {t t' : Template} {name : Text}

theorem Alike.refl (reg : Registry) : reg.Alike reg := fun _ => rfl

theorem Alike.get?_some (h : reg.Alike reg') (hget : reg.get? name = some t) :
    ∃ t', reg'.get? name = some t' ∧ t.outline = t'.outline := by
  have hsame := h name
  rw [hget] at hsame
  obtain ⟨t', ht', houtline⟩ := Option.map_eq_some_iff.mp hsame.symm
  exact ⟨t', ht', houtline.symm⟩

theorem Alike.get?_none (h : reg.Alike reg') (hget : reg.get? name = none) :
    reg'.get? name = none := by
  have hsame := h name
  rw [hget] at hsame
  exact Option.map_eq_none_iff.mp hsame.symm

theorem Alike.callee?_some (h : reg.Alike reg') (hcallee : reg.callee? name = some t) :
    ∃ t', reg'.callee? name = some t' ∧ t.outline = t'.outline := by
  obtain ⟨hget, hbody⟩ := get?_of_callee? hcallee
  obtain ⟨t', hget', houtline⟩ := h.get?_some hget
  refine ⟨t', ?_, houtline⟩
  have hsame : t.body = t'.body := congrArg (·.2.2) houtline
  rw [callee?, hget', Option.filter_some_pos (by simpa [← hsame] using hbody)]

theorem Alike.callee?_none (h : reg.Alike reg') (hcallee : reg.callee? name = none) :
    reg'.callee? name = none := by
  cases hcallee' : reg'.callee? name with
  | none => rfl
  | some t' =>
      have hback : reg'.Alike reg := fun name => (h name).symm
      obtain ⟨t, ht, -⟩ := hback.callee?_some hcallee'
      rw [hcallee] at ht
      cases ht

/-- A name that is free in one is free in the other, and the definitions leave them alike. -/
theorem Alike.define (h : reg.Alike reg') (hsame : t.outline = t'.outline)
    (hnew : reg.define t = .ok last) : ∃ last', reg'.define t' = .ok last' ∧ last.Alike last' := by
  obtain ⟨hfree, rfl⟩ := define_eq_ok_iff.mp hnew
  have hname : t.name = t'.name := congrArg (·.1) hsame
  refine ⟨⟨reg'.templates ++ [t']⟩, define_eq_ok_iff.mpr ⟨?_, rfl⟩, ?_⟩
  · rw [← hname]
    exact h.get?_none hfree
  · intro name
    have hearlier := h name
    rw [get?, get?] at hearlier ⊢
    rw [List.find?_append, List.find?_append, Option.map_or, Option.map_or, hearlier]
    congr 1
    by_cases hthis : t'.name = name
    · simp [hname, hthis, hsame]
    · simp [hname, hthis]

end Registry

/-! ## Computations that go the same way -/

/-- Two computations give what is related by `good`, or fail with what is related by `bad`. -/
def Concur {ε α β : Type} (good : α → β → Prop) (bad : ε → ε → Prop) :
    Except ε α → Except ε β → Prop
  | .ok a, .ok b => good a b
  | .error e, .error e' => bad e e'
  | _, _ => False

namespace Concur

variable {ε α β γ δ : Type} {bad : ε → ε → Prop}

theorem of_ok {good : α → β → Prop} {m : Except ε α} {b : β} (h : Concur good bad m (.ok b)) :
    ∃ a, m = .ok a ∧ good a b := by
  cases m with
  | error e => exact h.elim
  | ok a => exact ⟨a, rfl, h⟩

theorem of_error {good : α → β → Prop} {m : Except ε α} {e' : ε}
    (h : Concur good bad m (.error e')) : ∃ e, m = .error e ∧ bad e e' := by
  cases m with
  | error e => exact ⟨e, rfl, h⟩
  | ok a => exact h.elim

theorem bind {good : α → β → Prop} {good' : γ → δ → Prop} {m : Except ε α} {m' : Except ε β}
    {f : α → Except ε γ} {f' : β → Except ε δ} (h : Concur good bad m m')
    (hf : ∀ a b, good a b → Concur good' bad (f a) (f' b)) :
    Concur good' bad (m >>= f) (m' >>= f') := by
  cases m with
  | error e =>
      cases m' with
      | error e' => exact h
      | ok b => exact h.elim
  | ok a =>
      cases m' with
      | error e' => exact h.elim
      | ok b => exact hf a b h

theorem mono {good good' : α → β → Prop} {bad' : ε → ε → Prop} {m : Except ε α} {m' : Except ε β}
    (h : Concur good bad m m') (hgood : ∀ a b, good a b → good' a b)
    (hbad : ∀ e e', bad e e' → bad' e e') : Concur good' bad' m m' := by
  cases m with
  | error e =>
      cases m' with
      | error e' => exact hbad e e' h
      | ok b => exact h.elim
  | ok a =>
      cases m' with
      | error e' => exact h.elim
      | ok b => exact hgood a b h

theorem mapM {good : β → γ → Prop} {as : List α} {f : α → Except ε β} {f' : α → Except ε γ}
    (h : ∀ a ∈ as, Concur good bad (f a) (f' a)) :
    Concur (List.Forall₂ good) bad (as.mapM f) (as.mapM f') := by
  induction as with
  | nil => exact .nil
  | cons a as ih =>
      rw [List.mapM_cons, List.mapM_cons]
      refine (h a List.mem_cons_self).bind fun b c hfirst => ?_
      refine (ih fun a ha => h a (List.mem_cons_of_mem _ ha)).bind fun bs cs hrest => ?_
      exact .cons hfirst hrest

/-- Arguments that are the same are put in with the same effect. -/
theorem substitute {lookup lookup' : Text → Except ε Text} (t : Text)
    (h : ∀ name, Concur Eq bad (lookup name) (lookup' name)) :
    Concur Eq bad (substitute lookup t) (substitute lookup' t) := by
  fun_induction LineScript.substitute lookup t with
  | case1 =>
      rw [LineScript.substitute]
      exact rfl
  | case2 rest name after href ih =>
      rw [LineScript.substitute, if_pos rfl]
      split
      · rename_i name' after' href'
        obtain ⟨rfl, rfl⟩ := Prod.mk.inj (Option.some.inj (href.symm.trans href'))
        refine (h name).bind ?_
        rintro value _ rfl
        refine ih.bind ?_
        rintro more _ rfl
        exact rfl
      · rename_i hnone
        rw [href] at hnone
        cases hnone
  | case3 rest href ih =>
      rw [LineScript.substitute, if_pos rfl]
      split
      · rename_i hsome
        rw [href] at hsome
        cases hsome
      · refine ih.bind ?_
        rintro more _ rfl
        exact rfl
  | case4 c rest hc ih =>
      rw [LineScript.substitute, if_neg hc]
      refine ih.bind ?_
      rintro more _ rfl
      exact rfl

end Concur

/-! ## Commands -/

section Commands

variable {reg reg' : Registry} {t t' : Template} {site site' e e' : Expanded}
  {frames frames' : List Expanded}

/-- The same is wrong with two calls and the texts of their templates, calls inside them apart. -/
inductive TextErrors (t t' : Template) (site site' : Expanded) :
    ExpansionError → ExpansionError → Prop where
  | arguments (expected actual : Nat) :
      TextErrors t t' site site' ⟨site, .argumentCount t.name expected actual⟩
        ⟨site', .argumentCount t'.name expected actual⟩
  | parameter (name : Text) :
      TextErrors t t' site site' ⟨t.source, .unknownParameter name⟩
        ⟨t'.source, .unknownParameter name⟩
  | definition (source source' : Text) :
      TextErrors t t' site site' ⟨site, .nestedDefine t.name source⟩
        ⟨site', .nestedDefine t'.name source'⟩
  | malformed (error : SyntaxError) :
      TextErrors t t' site site' (.ofSyntax t.file error) (.ofSyntax t'.file error)

theorem TextErrors.sameKind {error error' : ExpansionError}
    (h : TextErrors t t' site site' error error') : SameKind error error' := by
  cases h <;> rfl

theorem matchArguments_alike (ht : t.outline = t'.outline) (hbody : site.body = site'.body) :
    Concur Eq (TextErrors t t' site site') (matchArguments t site) (matchArguments t' site') := by
  have hparams : t.params = t'.params := congrArg (·.2.1) ht
  simp only [matchArguments, hparams, hbody]
  split
  · exact rfl
  · exact .arguments _ _

theorem instantiate_alike (ht : t.outline = t'.outline) (args : Arguments) (line : Expression) :
    Concur (fun e e' => e.toExpression = e'.toExpression ∧ e.file = t.file ∧ e'.file = t'.file)
      (TextErrors t t' site site') (instantiate t args site line)
      (instantiate t' args site' line) := by
  have hparams : t.params = t'.params := congrArg (·.2.1) ht
  have hvalue : ∀ name, Concur Eq (TextErrors t t' site site') (parameterValue t args name)
      (parameterValue t' args name) := by
    intro name
    rw [parameterValue, parameterValue, Template.paramIndex?, Template.paramIndex?, hparams]
    split
    · exact rfl
    · exact .parameter name
  rw [instantiate, instantiate]
  refine (Concur.substitute line.name hvalue).bind ?_
  rintro name _ rfl
  refine (Concur.substitute line.body hvalue).bind ?_
  rintro body _ rfl
  simp only
  split
  · exact .definition _ _
  · exact ⟨rfl, rfl, rfl⟩

/-- Two calls that say the same concur as the errors of their texts and the lines of the texts
    do. -/
theorem concur_evalCommand_call {good : Expanded → Expanded → Prop}
    {bad : ExpansionError → ExpansionError → Prop} (hne : e.name ≠ [])
    (hcallee : reg.callee? e.name = some t) (hcallee' : reg'.callee? e.name = some t')
    (ht : t.outline = t'.outline) (hidle : (activeNames frames).contains e.name = false)
    (hactive : activeNames frames = activeNames frames') (hsite : e.content = e'.content)
    (herrors : ∀ error error', TextErrors t t' { e with stack := frames }
      { e' with stack := frames' } error error' → bad error error')
    (hlines : ∀ inner inner' : Expanded, inner.toExpression = inner'.toExpression →
      inner.file = t.file → inner'.file = t'.file →
      Concur (List.Forall₂ good) bad
        (evalCommand reg (frames ++ [{ e with stack := frames }]) inner)
        (evalCommand reg' (frames' ++ [{ e' with stack := frames' }]) inner')) :
    Concur (List.Forall₂ good) bad (evalCommand reg frames e) (evalCommand reg' frames' e') := by
  have hname : e.name = e'.name := congrArg (·.2.1) hsite
  have hbody : e.body = e'.body := congrArg (·.2.2) hsite
  have htext : t.body = t'.body := congrArg (·.2.2) ht
  rw [evalCommand_call hne hcallee hidle,
    evalCommand_call (hname ▸ hne) (hname ▸ hcallee') (by rw [← hactive, ← hname]; exact hidle),
    ← htext]
  -- the texts are equal, so both go through the same lines, one call further in
  have hargs : Concur Eq (TextErrors t t' { e with stack := frames } { e' with stack := frames' })
      (matchArguments t { e with stack := frames })
      (matchArguments t' { e' with stack := frames' }) := matchArguments_alike ht hbody
  refine (hargs.mono (fun _ _ h => h) herrors).bind ?_
  rintro args _ rfl
  have hline : ∀ line ∈ (readAll (Stream.ofText t.body)).1, Concur (List.Forall₂ good) bad
      (evalLine reg (frames ++ [{ e with stack := frames }]) t args { e with stack := frames } line)
      (evalLine reg' (frames' ++ [{ e' with stack := frames' }]) t' args
        { e' with stack := frames' } line) := by
    intro line _
    refine ((instantiate_alike ht args line).mono (fun _ _ h => h) herrors).bind ?_
    rintro inner inner' ⟨hsaid, hfile, hfile'⟩
    exact hlines inner inner' hsaid hfile hfile'
  refine (Concur.mapM hline).bind fun parts parts' hparts => ?_
  split
  · exact herrors _ _ (.malformed _)
  · exact List.rel_flatten hparts

/-- A command that says the same stands for results that say the same, or fails in the same way,
    inside calls of the same templates. -/
theorem evalCommand_alike (hreg : reg.Alike reg')
    (hactive : activeNames frames = activeNames frames') (hsite : e.content = e'.content) :
    Concur SameContent SameKind (evalCommand reg frames e) (evalCommand reg' frames' e') := by
  induction frames, e using evalCommand_induction reg generalizing frames' e' with
  | self frames e hidle =>
      have hname : e.name = e'.name := congrArg (·.2.1) hsite
      have hidle' : e'.name = [] ∨ reg'.callee? e'.name = none := by
        rw [← hname]
        exact hidle.imp_right hreg.callee?_none
      rw [evalCommand_self hidle, evalCommand_self hidle']
      show [e.content] = [e'.content]
      rw [hsite]
  | active frames e t hne hcallee hopen =>
      have hname : e.name = e'.name := congrArg (·.2.1) hsite
      obtain ⟨t', hcallee', -⟩ := hreg.callee?_some hcallee
      rw [hname] at hne hcallee' hopen
      rw [hactive] at hopen
      rw [evalCommand_active (hname ▸ hne) hcallee (by rw [hactive, hname]; exact hopen),
        evalCommand_active hne hcallee' hopen]
      exact rfl
  | call frames e t hne hcallee hidle ih =>
      have hname : e.name = e'.name := congrArg (·.2.1) hsite
      obtain ⟨t', hcallee', ht⟩ := hreg.callee?_some hcallee
      have hcall : Concur (List.Forall₂ fun r r' => r.content = r'.content) SameKind
          (evalCommand reg frames e) (evalCommand reg' frames' e') := by
        refine concur_evalCommand_call hne hcallee hcallee' ht hidle hactive hsite
          (fun _ _ herrors => herrors.sameKind) fun inner inner' hsaid _ _ => ?_
        refine (ih inner ?_ (congrArg Expression.content hsaid)).mono
          (fun _ _ => sameContent_iff.mp) fun _ _ h => h
        rw [activeNames_append, activeNames_append, hactive]
        exact congrArg (· :: _) hname
      exact hcall.mono (fun _ _ => sameContent_iff.mpr) fun _ _ h => h

end Commands

/-! ## Files -/

namespace Evaluation

variable {ev ev' : Evaluation}

/-- If the first evaluation meets no error, the second does not either and gives the same. -/
def RepeatedBy (ev ev' : Evaluation) : Prop :=
  ev.error = none → ev'.error = none ∧ SameContent ev.results ev'.results ∧
    ev.templates.Alike ev'.templates

theorem RepeatedBy.refl (ev : Evaluation) : ev.RepeatedBy ev :=
  fun herror => ⟨herror, rfl, .refl _⟩

theorem RepeatedBy.andThen {next next' : Registry → Evaluation} (h : ev.RepeatedBy ev')
    (hnext : ev.templates.Alike ev'.templates →
      (next ev.templates).RepeatedBy (next' ev'.templates)) :
    (ev.andThen next).RepeatedBy (ev'.andThen next') := by
  intro herror
  obtain ⟨hfirst, hsecond, -⟩ := error_andThen herror
  obtain ⟨hfirst', hresults, htemplates⟩ := h hfirst
  obtain ⟨hsecond', hmore, hlast⟩ := hnext htemplates hsecond
  rw [Evaluation.andThen, Evaluation.andThen, hfirst, hfirst']
  refine ⟨hsecond', ?_, hlast⟩
  show (ev.results ++ (next ev.templates).results).map _ =
    (ev'.results ++ (next' ev'.templates).results).map _
  rw [List.map_append, List.map_append]
  exact congr (congrArg _ hresults) hmore

end Evaluation

section Files

variable {fs fs' : FileSystem} {o : Options}

/-- A definition that says the same defines a template that says the same. -/
theorem Template.ofDefinition_congr {e e' : Expanded} (hbody : e.body = e'.body) :
    ofDefinition e' = (ofDefinition e).map ({ · with source := e' }) := by
  rw [ofDefinition, ofDefinition, hbody]
  simp only
  split
  · rfl
  · split
    · rfl
    · rfl

/-- An expression is repeated elsewhere if the files that it may splice are. -/
theorem evalExpression_alike {opened opened' : List Text} {e e' : Expanded} {reg reg' : Registry}
    (hopened : opened' ⊆ opened) (hreg : reg.Alike reg') (hsite : e.content = e'.content)
    (hsplice : ∀ target stream, opened.contains target = false →
      fs.access target = .ok stream →
      (evalExpressions fs o (target :: opened) target (readAll stream).2 (readAll stream).1
          reg).RepeatedBy
        (evalExpressions fs o (target :: opened') target (readAll stream).2 (readAll stream).1
          reg')) :
    (evalExpression fs o opened e reg).RepeatedBy (evalExpression fs o opened' e' reg') := by
  intro herror
  have hname : e.name = e'.name := congrArg (·.2.1) hsite
  have hbody : e.body = e'.body := congrArg (·.2.2) hsite
  rcases evalExpression_error_eq_none herror with ⟨hdefine, t, hread, hnew⟩ |
    ⟨hinclude, target, stream, htarget, hclosed, haccess, heval⟩ | ⟨hdefine, hinclude, -⟩
  · have hread' : Template.ofDefinition e' = .ok { t with source := e' } := by
      rw [Template.ofDefinition_congr hbody, hread]
      rfl
    have hsame : t.outline = Template.outline { t with source := e' } := rfl
    obtain ⟨last', hnew', hlast⟩ := hreg.define hsame hnew
    rw [evalExpression_define hdefine hread hnew,
      evalExpression_define (hname ▸ hdefine) hread' hnew']
    exact ⟨rfl, rfl, hlast⟩
  · -- fewer files are open, so the file is not among them
    have hclosed' : opened'.contains target = false := by
      simp only [List.contains_eq_mem, decide_eq_false_iff_not] at hclosed ⊢
      exact fun hmem => hclosed (hopened hmem)
    rw [heval] at herror ⊢
    rw [evalExpression_opened (hname ▸ hinclude) (hbody ▸ htarget) hclosed' haccess]
    exact hsplice target stream hclosed haccess herror
  · have hgoes : Concur SameContent SameKind (evalCommand reg [] e) (evalCommand reg' [] e') :=
      evalCommand_alike hreg rfl hsite
    rw [evalExpression_command hdefine hinclude] at herror ⊢
    rw [evalExpression_command (hname ▸ hdefine) (hname ▸ hinclude)]
    cases hcommand' : evalCommand reg' [] e' with
    | error error =>
        obtain ⟨error', hcommand, -⟩ := (hcommand' ▸ hgoes).of_error
        rw [hcommand] at herror
        cases herror
    | ok results' =>
        obtain ⟨results, hcommand, hsame⟩ := (hcommand' ▸ hgoes).of_ok
        rw [hcommand]
        exact ⟨rfl, hsame, hreg⟩

/-- What the expressions of a file say is repeated by expressions that say the same in another
    file, while fewer files are open. -/
theorem evalExpressions_alike {opened opened' : List Text} {file file' : Text}
    {malformed : Option SyntaxError} {raws raws' : List Expression} {reg reg' : Registry}
    (hopened : opened' ⊆ opened) (hreg : reg.Alike reg')
    (hraws : raws.map Expression.content = raws'.map Expression.content) :
    (evalExpressions fs o opened file malformed raws reg).RepeatedBy
      (evalExpressions fs o opened' file' malformed raws' reg') := by
  match raws, raws', malformed with
  | [], [], none =>
      rw [evalExpressions, evalExpressions]
      exact fun _ => ⟨rfl, rfl, hreg⟩
  | [], [], some error =>
      rw [evalExpressions]
      intro herror
      cases herror
  | [], raw' :: raws', _ => cases hraws
  | raw :: raws, [], _ => cases hraws
  | raw :: raws, raw' :: raws', malformed =>
      obtain ⟨hraw, hrest⟩ := List.cons.inj hraws
      rw [evalExpressions, evalExpressions]
      -- a splice opens the same file on both sides, so the files open on the right stay among
      -- those on the left
      refine Evaluation.RepeatedBy.andThen ?_ fun hmid => evalExpressions_alike hopened hmid hrest
      refine evalExpression_alike hopened hreg hraw fun target stream hclosed haccess => ?_
      exact evalExpressions_alike (List.cons_subset_cons target hopened) hreg rfl
termination_by (closedNames fs opened, raws.length)
decreasing_by
  · exact .left _ _ (closedNames_cons_lt (FileSystem.mem_names_of_access haccess) hclosed)
  · exact .right _ (Nat.lt_succ_self _)

/-- The end of a file that was read to its end gives nothing. -/
theorem evalExpressions_nil (opened : List Text) (file : Text) (reg : Registry) :
    evalExpressions fs o opened file none [] reg = .give reg [] := by
  rw [evalExpressions]

/-- Expressions one behind the other are evaluated one behind the other. -/
theorem evalExpressions_append (opened : List Text) (file : Text) (malformed : Option SyntaxError)
    (raws more : List Expression) (reg : Registry) :
    evalExpressions fs o opened file malformed (raws ++ more) reg =
      (evalExpressions fs o opened file none raws reg).andThen
        (evalExpressions fs o opened file malformed more) := by
  induction raws generalizing reg with
  | nil => rw [List.nil_append, evalExpressions_nil, Evaluation.give_andThen, Evaluation.after_nil]
  | cons raw raws ih =>
      rw [List.cons_append, evalExpressions, evalExpressions, Evaluation.andThen_assoc]
      congr 1
      funext reg
      exact ih reg

/-- What an open file holds does not matter, because it is not opened again. -/
theorem evalExpressions_congr {opened : List Text} {file : Text} {malformed : Option SyntaxError}
    {raws : List Expression} {reg : Registry}
    (h : ∀ name, name ∉ opened → fs.access name = fs'.access name) :
    evalExpressions fs o opened file malformed raws reg =
      evalExpressions fs' o opened file malformed raws reg := by
  match raws, malformed with
  | [], none => rw [evalExpressions, evalExpressions]
  | [], some error => rw [evalExpressions, evalExpressions]
  | raw :: raws, malformed =>
      rw [evalExpressions, evalExpressions]
      have hfirst : ∀ e : Expanded,
          evalExpression fs o opened e reg = evalExpression fs' o opened e reg := by
        intro e
        by_cases hinclude : e.name = includeWord
        · cases htarget : includeTarget o e.body with
          | error cause =>
              rw [evalExpression_unnamed hinclude htarget, evalExpression_unnamed hinclude htarget]
          | ok target =>
              cases hopen : opened.contains target with
              | true =>
                  rw [evalExpression_reopened hinclude htarget hopen,
                    evalExpression_reopened hinclude htarget hopen]
              | false =>
                  have hsame := h target (by simpa using hopen)
                  cases haccess : fs.access target with
                  | error error =>
                      rw [evalExpression_unopened hinclude htarget hopen haccess,
                        evalExpression_unopened hinclude htarget hopen (hsame ▸ haccess)]
                  | ok stream =>
                      rw [evalExpression_opened hinclude htarget hopen haccess,
                        evalExpression_opened hinclude htarget hopen (hsame ▸ haccess)]
                      -- inside the file even fewer files have to be equal
                      refine evalExpressions_congr fun name hname => h name fun hmem => ?_
                      exact hname (List.mem_cons_of_mem target hmem)
        · rw [evalExpression, evalExpression, if_neg hinclude, if_neg hinclude]
      rw [hfirst]
      congr 1
      funext reg
      exact evalExpressions_congr h
termination_by (closedNames fs opened, raws.length)
decreasing_by
  · exact .left _ _ (closedNames_cons_lt (FileSystem.mem_names_of_access haccess) hopen)
  · exact .right _ (Nat.lt_succ_self _)

end Files

end LineScript
