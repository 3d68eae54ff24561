import LineScript.Proofs.Ledger

/-!
# Results are fully expanded

A result is handed out long after the command that gave it was carried out, and its name may have
come from an argument. Still nothing is left to do about it: it is no definition, no splice of a
file, and no call of a template, as the templates are when it is handed out.

* `Registry.Irreducible`: nothing is left to do about an expression.
* `irreducible_evalCommand`: what a command stands for is irreducible, at any depth.
* `Visits.irreducible`: so is all that waits, because no template is registered while it does.
-/

namespace LineScript

namespace Registry

/-- Nothing is left to do about an expression: it defines nothing, it splices no file unless a
    call gave it, and its name calls nothing. -/
structure Irreducible (reg : Registry) (e : Expanded) : Prop where
  plain : e.name ≠ defineWord
  unspliced : e.name = includeWord → e.stack ≠ []
  uncalled : reg.callee? e.name = none

variable {reg : Registry}

/-- A name calls nothing exactly if it is free or its template has no text. -/
theorem callee?_eq_none_iff {name : Text} :
    reg.callee? name = none ↔
      reg.get? name = none ∨ ∃ t, reg.get? name = some t ∧ t.body = [] := by
  rw [callee?, Option.filter_eq_none_iff]
  cases reg.get? name with
  | none => simp
  | some t => simp

/-- A blank line calls nothing. -/
theorem Sound.callee?_nil (h : reg.Sound) : reg.callee? [] = none := by
  cases hcallee : reg.callee? [] with
  | none => rfl
  | some t =>
      obtain ⟨hmem, hname, -⟩ := callee?_eq_some hcallee
      obtain ⟨decl, hread⟩ := h.read t hmem
      exact absurd hname (readable_of_ofDefinition hread).1.named

end Registry

/-! ## Commands -/

/-- What a command stands for is irreducible, if the command itself is no directive. -/
theorem irreducible_evalCommand {reg : Registry} {frames : List Expanded} {e : Expanded}
    (hreg : reg.Sound) (hplain : e.name ≠ defineWord)
    (hunspliced : e.name = includeWord → frames ≠ []) :
    Settles (fun results => ∀ r ∈ results, reg.Irreducible r) (fun _ => True)
      (evalCommand reg frames e) := by
  induction frames, e using evalCommand_induction reg with
  | self frames e hself =>
      have huncalled : reg.callee? e.name = none := by
        rcases hself with hblank | huncalled
        · rw [hblank]
          exact hreg.callee?_nil
        · exact huncalled
      rw [evalCommand_self hself]
      intro r hr
      obtain rfl := List.mem_singleton.mp hr
      exact ⟨hplain, hunspliced, huncalled⟩
  | active frames e t hname hcallee hactive =>
      rw [evalCommand_active hname hcallee hactive]
      trivial
  | call frames e t hname hcallee hidle ih =>
      refine settles_evalCommand_call hname hcallee hidle (fun _ _ => trivial) ?_
      intro args line e' hline hinstance
      -- arguments may make any name of the line but that of a definition
      obtain ⟨name, body, -, -, hplain', rfl⟩ := instantiate_eq_ok hinstance
      exact ih _ hplain' fun _ => List.append_ne_nil_of_right_ne_nil _ (List.cons_ne_nil _ _)

namespace Expander

/-! ## Runs -/

/-- What carrying out an expression of a file gives is irreducible. -/
theorem Effect.irreducible {x y : Expander} {e : Expanded} {results : List Expanded}
    (h : x.Effect e (.ok results) y) (hcalls : x.calls = {}) (hfile : e.stack = [])
    (hsound : x.templates.Sound) : ∀ r ∈ results, y.templates.Irreducible r := by
  cases h with
  | registered => exact fun r hr => absurd hr List.not_mem_nil
  | opened => exact fun r hr => absurd hr List.not_mem_nil
  | expanded hdefine hinclude hexpand =>
      rw [hcalls, expandFileCommand_eq_evalCommand x.templates hfile] at hexpand
      obtain ⟨heval, -⟩ := Prod.mk.inj hexpand
      have hsettles := @irreducible_evalCommand _ [] e hsound hdefine
        fun hsplice => absurd hsplice hinclude
      rw [heval] at hsettles
      exact hsettles

/-- All that waits in a state of a run is irreducible. -/
theorem Visits.irreducible {x₀ x : Expander} (horderly : x₀.Orderly)
    (hsound : x₀.templates.Sound) (hstart : ∀ e ∈ x₀.pending, x₀.templates.Irreducible e)
    (h : Visits x₀ x) : ∀ e ∈ x.pending, x.templates.Irreducible e := by
  induction h with
  | start => exact hstart
  | turn h hrunning hturn ih =>
      cases hturn with
      | handOut hpending => exact fun e he => ih e (hpending ▸ List.mem_cons_of_mem _ he)
      | leave => exact ih
      | carryOut hpending hfiles hread hexec =>
          have hregistered := h.sound hsound
          exact (effect_of_execute hexec).irreducible (h.orderly horderly).calls rfl hregistered
  | finish h hrunning hpending hfiles ih => exact ih
  | malformed h hrunning hpending hfiles hread ih => exact ih
  | @fail x y frame outer raw reader error h hrunning hpending hfiles hread hexec ih =>
      have hwaits : y.pending = [] := (effect_of_execute hexec).unchanged.2.2.1.trans hpending
      intro e he
      rw [show _ = [] from hwaits] at he
      cases he
  | report h hstatus ih => exact ih
  | settings h options ih => exact ih

theorem pending_start (fs : FileSystem) (o : Options) (script : Text) :
    (start fs o script).pending = [] := by
  rw [start]
  cases fs.access script <;> rfl

/-- Results are fully expanded. For every file system, setting and script, after any actions of the
    user, an expression that is read is no definition; if it is named like a splice, a call gave
    it; and in the state after the read its name is free or that of a template without text. -/
theorem perform_read_irreducible (fs : FileSystem) (o : Options) (script : Text)
    (actions : List Action) {e : Expanded} {y : Expander}
    (hread : ((start fs o script).perform actions).read = (.ok (some e), y)) :
    e.name ≠ defineWord ∧ (e.name = includeWord → e.stack ≠ []) ∧
      (y.templates.get? e.name = none ∨
        ∃ t, y.templates.get? e.name = some t ∧ t.body = []) := by
  have hvisits := visits_perform (start fs o script) actions
  obtain ⟨z, pending, hz, hpending, rfl⟩ := hvisits.exists_of_read_some hread
  have hnone : ∀ e ∈ (start fs o script).pending,
      (start fs o script).templates.Irreducible e := by
    rw [pending_start]
    exact fun e he => absurd he List.not_mem_nil
  have hirreducible := hz.irreducible (orderly_start fs o script) (sound_start fs o script) hnone e
    (hpending ▸ List.mem_cons_self)
  exact ⟨hirreducible.plain, hirreducible.unspliced,
    Registry.callee?_eq_none_iff.mp hirreducible.uncalled⟩

/-- A result that waited behind another and has its name from an argument: it is named like a
    splice, and like a template without text. -/
theorem perform_read_irreducible_waiting :
    let script := "define a x\n\tsay\n\t$x 1\ndefine include\na include\n".toList
    let x := (start (.ofList [("s".toList, .ok (.ofText script))]) {} "s".toList).perform [.read]
    ∃ e y, x.read = (.ok (some e), y) ∧ e.name = includeWord ∧ y.templates.size = 2 ∧
      e.name ≠ defineWord ∧ (e.name = includeWord → e.stack ≠ []) ∧
      (y.templates.get? e.name = none ∨
        ∃ t, y.templates.get? e.name = some t ∧ t.body = []) := by
  intro script x
  let site : Expanded :=
    { line := 5, name := "a".toList, body := includeWord, file := "s".toList }
  let e : Expanded :=
    { line := 2, name := includeWord, body := "1".toList, file := "s".toList, stack := [site] }
  have hgiven : x.read.1.toOption = some (some e) := by decide +kernel
  have hread : x.read = (.ok (some e), x.read.2) := Prod.ext (eq_ok_of_toOption hgiven) rfl
  have hsize : x.read.2.templates.size = 2 := by decide +kernel
  exact ⟨e, x.read.2, hread, rfl, hsize,
    perform_read_irreducible _ {} "s".toList [.read] hread⟩

end Expander

end LineScript
