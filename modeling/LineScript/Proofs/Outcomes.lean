import LineScript.Proofs.Evaluator

/-!
# Outcomes of a call

A call gives results or fails. Whatever is shown of all its results and errors is shown line by line
of its template's text: this file says what a line of a text becomes, how it fails, and how a call
settles once its lines do.

* `Settles`: what holds of the result of a computation, and what of its error.
* `TextError`: the errors of a call that are not those of calls inside it.
* `instantiate_eq_ok`: what a line of a text becomes; it is never a definition.
* `settles_evalCommand_call`: a call, by the lines of its text.
-/

namespace LineScript

/-! ## Outcomes -/

/-- A computation gives something `good` or fails with something `bad`. -/
def Settles {ε α : Type} (good : α → Prop) (bad : ε → Prop) : Except ε α → Prop
  | .ok a => good a
  | .error e => bad e

section Outcomes

variable {ε α β : Type}

/-- What succeeds in two steps succeeds in each. -/
theorem exists_of_bind_eq_ok {m : Except ε α} {f : α → Except ε β} {b : β}
    (h : m >>= f = .ok b) : ∃ a, m = .ok a ∧ f a = .ok b := by
  cases m with
  | error e => cases h
  | ok a => exact ⟨a, rfl, h⟩

theorem exists_of_mapM_eq_ok {as : List α} {f : α → Except ε β} {bs : List β}
    (h : as.mapM f = .ok bs) : ∀ a ∈ as, ∃ b, f a = .ok b := by
  induction as generalizing bs with
  | nil => exact fun a ha => absurd ha List.not_mem_nil
  | cons a as ih =>
      rw [List.mapM_cons] at h
      obtain ⟨b, hb, h⟩ := exists_of_bind_eq_ok h
      obtain ⟨bs', hbs, -⟩ := exists_of_bind_eq_ok h
      intro a' ha'
      rcases List.mem_cons.mp ha' with rfl | ha'
      · exact ⟨b, hb⟩
      · exact ih hbs a' ha'

theorem eq_ok_of_toOption {m : Except ε α} {a : α} (h : m.toOption = some a) : m = .ok a := by
  cases m with
  | error e => cases h
  | ok b => rw [Option.some.inj h]

end Outcomes

namespace Settles

variable {ε α β : Type} {good : α → Prop} {good' : β → Prop} {bad : ε → Prop}

theorem mono {better : α → Prop} {worse : ε → Prop} {m : Except ε α} (h : Settles good bad m)
    (hgood : ∀ a, good a → better a) (hbad : ∀ e, bad e → worse e) : Settles better worse m := by
  cases m with
  | error e => exact hbad e h
  | ok a => exact hgood a h

theorem bind {m : Except ε α} {f : α → Except ε β} (h : Settles good bad m)
    (hf : ∀ a, good a → Settles good' bad (f a)) : Settles good' bad (m >>= f) := by
  cases m with
  | error e => exact h
  | ok a => exact hf a h

theorem mapM {as : List α} {f : α → Except ε β} (h : ∀ a ∈ as, Settles good' bad (f a)) :
    Settles (fun bs => ∀ b ∈ bs, good' b) bad (as.mapM f) := by
  induction as with
  | nil =>
      intro b hb
      cases hb
  | cons a as ih =>
      rw [List.mapM_cons]
      refine (h a List.mem_cons_self).bind fun b hb => ?_
      refine (ih fun a ha => h a (List.mem_cons_of_mem _ ha)).bind fun bs hbs => ?_
      intro b' hb'
      rcases List.mem_cons.mp hb' with rfl | hb'
      · exact hb
      · exact hbs b' hb'

/-- Putting arguments in fails only where one of them is asked for. -/
theorem substitute {lookup : Text → Except ε Text} (t : Text)
    (h : ∀ name, Settles (fun _ => True) bad (lookup name)) :
    Settles (fun _ => True) bad (substitute lookup t) := by
  fun_induction LineScript.substitute lookup t with
  | case1 => trivial
  | case2 rest name after href ih =>
      exact (h name).bind fun _ _ => ih.bind fun _ _ => trivial
  | case3 rest href ih => exact ih.bind fun _ _ => trivial
  | case4 c rest hc ih => exact ih.bind fun _ _ => trivial

end Settles

/-! ## Errors of a text -/

/-- What can be wrong with a call and the text of its template, calls inside it apart. -/
inductive TextError (t : Template) (site : Expanded) : ExpansionError → Prop where
  | arguments (expected actual : Nat) :
      TextError t site ⟨site, .argumentCount t.name expected actual⟩
  | parameter (name : Text) : TextError t site ⟨t.source, .unknownParameter name⟩
  | definition (source : Text) : TextError t site ⟨site, .nestedDefine t.name source⟩
  | malformed {error : SyntaxError} (hstops : (readAll (Stream.ofText t.body)).2 = some error) :
      TextError t site (.ofSyntax t.file error)

section Texts

variable {reg : Registry} {t : Template} {site e : Expanded} {frames : List Expanded}
  {args : Arguments} {line : Expression}

theorem settles_matchArguments (t : Template) (site : Expanded) :
    Settles (fun _ => True) (TextError t site) (matchArguments t site) := by
  simp only [matchArguments]
  split
  · trivial
  · exact .arguments _ _

/-- A line of a text with its arguments put in, and the ways in which it fails. -/
theorem settles_instantiate (t : Template) (args : Arguments) (site : Expanded)
    (line : Expression) :
    Settles (fun e => ∃ name body, substitute (parameterValue t args) line.name = .ok name ∧
        substitute (parameterValue t args) line.body = .ok body ∧ name ≠ defineWord ∧
        e = Expanded.ofExpression { line with name, body } t.file)
      (TextError t site) (instantiate t args site line) := by
  have hsubstitute : ∀ text, Settles
      (fun value => substitute (parameterValue t args) text = .ok value) (TextError t site)
      (substitute (parameterValue t args) text) := by
    intro text
    have hvalue : ∀ name, Settles (fun _ => True) (TextError t site)
        (parameterValue t args name) := by
      intro name
      rw [parameterValue]
      split
      · trivial
      · exact .parameter name
    have hfails := Settles.substitute text hvalue
    cases hvalue : substitute (parameterValue t args) text with
    | error error =>
        rw [hvalue] at hfails
        exact hfails
    | ok value => rfl
  rw [instantiate]
  refine (hsubstitute line.name).bind fun name hname => ?_
  refine (hsubstitute line.body).bind fun body hbody => ?_
  simp only
  split
  · exact .definition _
  · rename_i hplain
    exact ⟨name, body, hname, hbody, hplain, rfl⟩

theorem instantiate_eq_ok (h : instantiate t args site line = .ok e) :
    ∃ name body, substitute (parameterValue t args) line.name = .ok name ∧
      substitute (parameterValue t args) line.body = .ok body ∧ name ≠ defineWord ∧
      e = Expanded.ofExpression { line with name, body } t.file := by
  have hsettles := settles_instantiate t args site line
  rw [h] at hsettles
  exact hsettles

/-- A call settles as the errors of its text and the lines of the text do. -/
theorem settles_evalCommand_call {good : Expanded → Prop} {bad : ExpansionError → Prop}
    (hname : e.name ≠ []) (hcallee : reg.callee? e.name = some t)
    (hidle : (activeNames frames).contains e.name = false)
    (herrors : ∀ error, TextError t { e with stack := frames } error → bad error)
    (hlines : ∀ args line e', line ∈ (readAll (Stream.ofText t.body)).1 →
      instantiate t args { e with stack := frames } line = .ok e' →
      Settles (fun results => ∀ r ∈ results, good r) bad
        (evalCommand reg (frames ++ [{ e with stack := frames }]) e')) :
    Settles (fun results => ∀ r ∈ results, good r) bad (evalCommand reg frames e) := by
  rw [evalCommand_call hname hcallee hidle]
  refine ((settles_matchArguments t _).mono (fun _ h => h) herrors).bind fun args _ => ?_
  have hline : ∀ line ∈ (readAll (Stream.ofText t.body)).1,
      Settles (fun results => ∀ r ∈ results, good r) bad
        (evalLine reg (frames ++ [{ e with stack := frames }]) t args { e with stack := frames }
          line) := by
    intro line hline
    rw [evalLine]
    cases hinstance : instantiate t args { e with stack := frames } line with
    | error error =>
        have hsettles := settles_instantiate t args { e with stack := frames } line
        rw [hinstance] at hsettles
        exact herrors error hsettles
    | ok e' => exact hlines args line e' hline hinstance
  refine (Settles.mapM hline).bind fun parts hparts => ?_
  split
  · rename_i hstops
    exact herrors _ (.malformed hstops)
  · intro r hr
    obtain ⟨part, hpart, hr⟩ := List.mem_flatten.mp hr
    exact hparts part hpart r hr

end Texts

end LineScript
