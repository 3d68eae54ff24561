import LineScript.Proofs.Shape

/-!
# One call in many places

What a call stands for is decided by the templates, its name and its arguments. Where it is made
shows in its results only as the part of their chains that leads to it, and it decides nothing, with
one exception: a template is not called while it is active. So a call may fail inside some calls and
succeed inside others, but if it succeeds inside some calls, it does so inside all that have no
other active names, and outside every call in particular. That is where any two calls that succeed
can be compared.

* `Expanded.Recurs`: an expression again, inside other calls.
* `expandCall_recurs`: a call that succeeds, made again where no more names are active.
* `expandCall_everywhere`: any two calls that say the same.
-/

namespace LineScript

/-! ## Expressions inside other calls -/

/-- Two expressions that differ at most in the calls that led to them. -/
def Expanded.Twins (e e' : Expanded) : Prop :=
  e.toExpression = e'.toExpression ∧ e.file = e'.file

/-- The expression `e'` is the expression `e` with the calls `base'` in the place of the calls
    `base`, which are the first ones of those that led to it. The calls inside of these are the
    same again. -/
structure Expanded.Recurs (base base' : List Expanded) (e e' : Expanded) : Prop where
  twins : e.Twins e'
  chains : ∃ inner inner', e.stack = base ++ inner ∧ e'.stack = base' ++ inner' ∧
    List.Forall₂ Expanded.Twins inner inner'

/-- The calls from inside a call at `site`. -/
def CallStack.enter (calls : CallStack) (site : Expanded) : CallStack :=
  ⟨calls.frames ++ [{ site with stack := calls.frames }], site.name :: calls.active⟩

namespace Expanded

variable {base base' base₀ : List Expanded} {e e' e₀ site site' : Expanded}
  {calls calls' : CallStack}

/-- Two expressions that differ from a third one in their calls differ in their calls. -/
theorem Twins.join (h : e₀.Twins e) (h' : e₀.Twins e') : e.Twins e' :=
  ⟨h.1.symm.trans h'.1, h.2.symm.trans h'.2⟩

theorem Recurs.join (h : Recurs base₀ base e₀ e) (h' : Recurs base₀ base' e₀ e') :
    Recurs base base' e e' := by
  obtain ⟨htwins, inner₀, inner, hstack₀, hstack, hinner⟩ := h
  obtain ⟨htwins', inner₁, inner', hstack₁, hstack', hinner'⟩ := h'
  obtain rfl : inner₀ = inner₁ := List.append_cancel_left (hstack₀.symm.trans hstack₁)
  exact ⟨htwins.join htwins', inner, inner', hstack, hstack',
    forall₂_of_common hinner hinner' Twins.join⟩

/-- An expression directly inside some calls, and directly inside others. -/
theorem Recurs.here (e : Expanded) (base base' : List Expanded) :
    Recurs base base' { e with stack := base } { e with stack := base' } :=
  ⟨⟨rfl, rfl⟩, [], [], (List.append_nil base).symm, (List.append_nil base').symm, .nil⟩

/-- A call that is made in both places may be counted among the calls that are the same. -/
theorem Recurs.outside (h : Recurs (calls.enter site).frames (calls'.enter site').frames e e')
    (hsite : site.Twins site') : Recurs calls.frames calls'.frames e e' := by
  obtain ⟨htwins, inner, inner', hstack, hstack', hinner⟩ := h
  refine ⟨htwins, { site with stack := calls.frames } :: inner,
    { site' with stack := calls'.frames } :: inner', ?_, ?_, .cons hsite hinner⟩
  · rw [hstack, CallStack.enter, List.append_assoc]
    rfl
  · rw [hstack', CallStack.enter, List.append_assoc]
    rfl

/-- What has calls keeps them. -/
theorem within_of_enter {inner : List Expanded} (h : e.stack = (calls.enter site).frames ++ inner)
    (frames : List Expanded) : e.within frames = e :=
  if_neg (by simp [h, CallStack.enter])

end Expanded

/-! ## Calls that succeed -/

section Success

variable {reg : Registry} {call call' : Template → Expanded → Calling (List Expanded)}
  {t : Template} {args : Arguments} {site site' : Expanded} {calls calls' : CallStack}
  {results : List Expanded}

/-- The lines of a text succeed if the first one does and the others do. -/
theorem expandLines_cons_eq_ok_iff (hcall : Restoring call) {line : Expression}
    {lines : List Expression} :
    (expandLines reg call t args site (line :: lines) calls).1 = .ok results ↔
      ∃ e first more, instantiate t args site line = .ok e ∧
        (expandCommand reg call e calls).1 = .ok first ∧
        (expandLines reg call t args site lines calls).1 = .ok more ∧
        results = first.map (Expanded.within calls.frames) ++ more := by
  rw [expandLines]
  cases hline : instantiate t args site line with
  | error error => simp
  | ok e =>
      have hrestored := expandCommand_calls reg hcall e calls
      rcases hfirst : expandCommand reg call e calls with ⟨error | first, after⟩
      · simp [hfirst]
      · rw [hfirst] at hrestored
        obtain rfl : after = calls := hrestored
        rcases hmore : expandLines reg call t args site lines after with ⟨error | more, last⟩
        · simp [hfirst, hmore]
        · simp [hfirst, hmore, eq_comm]

/-- A call succeeds if its template is not active and the text succeeds inside of it. -/
theorem expandCall_eq_ok_iff {room : Nat} :
    (expandCall reg (room + 1) t site calls).1 = .ok results ↔
      calls.active.contains site.name = false ∧
      (expandBody reg (expandCall reg room) t { site with stack := calls.frames }
        (calls.enter site)).1 = .ok results := by
  rw [expandCall]
  simp only
  cases hactive : calls.active.contains site.name with
  | true =>
      have hpush : calls.push? { site with stack := calls.frames } = none :=
        CallStack.push?_eq_none.mpr hactive
      simp [hpush]
  | false =>
      have hpush : calls.push? { site with stack := calls.frames } = some (calls.enter site) :=
        if_neg (ne_true_of_eq_false hactive)
      simp [hpush]

/-- The place of a call does not show in the lines of its text. -/
theorem instantiate_of_ok {line : Expression} {e : Expanded}
    (h : instantiate t args site line = .ok e) (site' : Expanded) :
    instantiate t args site' line = .ok e := by
  obtain ⟨name, body, hname, hbody, hplain, rfl⟩ := instantiate_eq_ok h
  rw [instantiate, hname, hbody]
  exact if_neg hplain

/-- Nor does it matter to its arguments. -/
theorem matchArguments_of_ok (h : matchArguments t site = .ok args)
    (hbody : site.body = site'.body) : matchArguments t site' = .ok args := by
  rw [matchArguments] at h ⊢
  simp only [← hbody]
  split at h
  · rename_i hsize
    rw [if_pos hsize]
    exact h
  · cases h

/-! ## Calls made again -/

/-- Whatever succeeds by `call` inside `calls` succeeds by `call'` inside `calls'`, and recurs. -/
def RecursWithin (call call' : Template → Expanded → Calling (List Expanded))
    (calls calls' : CallStack) : Prop :=
  ∀ t e results, (call t e calls).1 = .ok results →
    ∃ results', (call' t e calls').1 = .ok results' ∧
      List.Forall₂ (Expanded.Recurs (calls'.enter e).frames (calls.enter e).frames) results' results

/-- A command of a text recurs if the calls do. -/
theorem expandCommand_recurs (h : RecursWithin call call' calls calls') {e : Expanded}
    (hstack : e.stack = []) {first : List Expanded}
    (hfirst : (expandCommand reg call e calls).1 = .ok first) :
    ∃ first', (expandCommand reg call' e calls').1 = .ok first' ∧
      List.Forall₂ (Expanded.Recurs calls'.frames calls.frames)
        (first'.map (Expanded.within calls'.frames))
        (first.map (Expanded.within calls.frames)) := by
  rw [expandCommand] at hfirst ⊢
  by_cases hblank : e.name = []
  · rw [if_pos hblank] at hfirst ⊢
    obtain rfl := Except.ok.inj hfirst
    have hwithin : ∀ frames, e.within frames = { e with stack := frames } :=
      fun frames => if_pos (by rw [hstack]; rfl)
    refine ⟨[e], rfl, ?_⟩
    rw [List.map_singleton, List.map_singleton, hwithin, hwithin]
    exact .cons (.here e _ _) .nil
  · rw [if_neg hblank] at hfirst ⊢
    cases hcallee : reg.callee? e.name with
    | none =>
        rw [hcallee] at hfirst
        obtain rfl := Except.ok.inj hfirst
        have hwithin : ∀ frames : List Expanded,
            { e with stack := frames }.within frames = { e with stack := frames } :=
          fun frames => ite_self _
        refine ⟨_, rfl, ?_⟩
        rw [List.map_singleton, List.map_singleton, hwithin, hwithin]
        exact .cons (.here e _ _) .nil
    | some u =>
        rw [hcallee] at hfirst
        obtain ⟨first', hfirst', hrecurs⟩ := h u e first hfirst
        refine ⟨first', hfirst', ?_⟩
        rw [List.forall₂_map_left_iff, List.forall₂_map_right_iff]
        refine hrecurs.imp ?_
        intro r' r hr
        obtain ⟨inner', inner, hr', hr₀, -⟩ := hr.chains
        rw [Expanded.within_of_enter hr', Expanded.within_of_enter hr₀]
        exact hr.outside ⟨rfl, rfl⟩

/-- So do the lines of a text. -/
theorem expandLines_recurs (hcall : Restoring call) (hcall' : Restoring call')
    (h : RecursWithin call call' calls calls') {lines : List Expression}
    (hlines : (expandLines reg call t args site lines calls).1 = .ok results) (site' : Expanded) :
    ∃ results', (expandLines reg call' t args site' lines calls').1 = .ok results' ∧
      List.Forall₂ (Expanded.Recurs calls'.frames calls.frames) results' results := by
  induction lines generalizing results with
  | nil =>
      obtain rfl := Except.ok.inj hlines
      exact ⟨[], rfl, .nil⟩
  | cons line lines ih =>
      obtain ⟨e, first, more, hline, hfirst, hmore, rfl⟩ :=
        (expandLines_cons_eq_ok_iff hcall).mp hlines
      obtain ⟨first', hfirst', hrecurs⟩ := expandCommand_recurs h (instantiate_stack hline) hfirst
      obtain ⟨more', hmore', hrest⟩ := ih hmore
      refine ⟨_, (expandLines_cons_eq_ok_iff hcall').mpr
        ⟨e, first', more', instantiate_of_ok hline site', hfirst', hmore', rfl⟩, ?_⟩
      exact List.rel_append hrecurs hrest

/-- A call that succeeds does so in every other place with no more active names and no less room,
    and its results recur there. -/
theorem expandCall_recurs {room room' : Nat} (hroom : room ≤ room')
    (hname : site.name = site'.name) (hbody : site.body = site'.body)
    (hactive : calls'.active ⊆ calls.active)
    (h : (expandCall reg room t site calls).1 = .ok results) :
    ∃ results', (expandCall reg room' t site' calls').1 = .ok results' ∧
      List.Forall₂ (Expanded.Recurs (calls'.enter site').frames (calls.enter site).frames)
        results' results := by
  -- the induction is on the room, and every call inside the call adds one name to both sides
  induction room generalizing room' t site site' calls calls' results with
  | zero => cases h
  | succ room ih =>
      obtain ⟨more, rfl⟩ := Nat.exists_eq_add_of_le' hroom
      obtain ⟨hidle, htext⟩ := expandCall_eq_ok_iff.mp h
      obtain ⟨hargs, lines, hparse, hlines⟩ := expandBody_eq_ok_iff.mp htext
      have hinner : (calls'.enter site').active ⊆ (calls.enter site).active := by
        show site'.name :: calls'.active ⊆ site.name :: calls.active
        rw [hname]
        exact List.cons_subset_cons _ hactive
      have hrecurs : RecursWithin (expandCall reg room) (expandCall reg (more + room))
          (calls.enter site) (calls'.enter site') :=
        fun u e results hok => ih (Nat.le_add_left _ _) rfl rfl hinner hok
      obtain ⟨results', hlines', hresults⟩ := expandLines_recurs (expandCall_calls reg room)
        (expandCall_calls reg (more + room)) hrecurs hlines { site' with stack := calls'.frames }
      have hsame : ({ site' with stack := calls'.frames } : Expanded).body =
          ({ site with stack := calls.frames } : Expanded).body := hbody.symm
      refine ⟨results', expandCall_eq_ok_iff.mpr ⟨?_, expandBody_eq_ok_iff.mpr ?_⟩, hresults⟩
      · rw [List.contains_eq_mem, decide_eq_false_iff_not] at hidle ⊢
        exact fun hmem => hidle (hname ▸ hactive hmem)
      · rw [hsame]
        exact ⟨matchArguments_of_ok hargs hbody, lines, hparse, hlines'⟩

end Success

/-- A call gives the same wherever it is made. Take any templates, two calls of a template with the
    same name and the same body, in any files, on any lines and below any comments, each inside any
    calls, and any room for calls inside of it. If both succeed, they have as many results, and
    these agree one for one in line, comment, name, body and file; the chain of each result is that
    of its call, then the call, and then calls that agree one for one. And if one of them succeeds,
    so does the other if no names are active around it that are not active around the first. -/
theorem expandCall_everywhere (reg : Registry) (t : Template) (site site' : Expanded)
    (calls calls' : CallStack) (room room' : Nat) (hname : site.name = site'.name)
    (hbody : site.body = site'.body) :
    (∀ results results', (expandCall reg room t site calls).1 = .ok results →
      (expandCall reg room' t site' calls').1 = .ok results' →
      List.Forall₂ (Expanded.Recurs (calls.frames ++ [{ site with stack := calls.frames }])
        (calls'.frames ++ [{ site' with stack := calls'.frames }])) results results') ∧
    (calls'.active ⊆ calls.active → room ≤ room' → ∀ results,
      (expandCall reg room t site calls).1 = .ok results →
      ∃ results', (expandCall reg room' t site' calls').1 = .ok results') := by
  constructor
  · intro results results' h h'
    -- both recur outside every call, where no name is active
    have hfree : ∀ names : List Text, ({} : CallStack).active ⊆ names := List.nil_subset
    obtain ⟨found, hfound, hrecurs⟩ :=
      expandCall_recurs (Nat.le_max_left room room') rfl rfl (hfree _) h
    obtain ⟨found', hfound', hrecurs'⟩ :=
      expandCall_recurs (Nat.le_max_right room room') hname.symm hbody.symm (hfree _) h'
    obtain rfl : found = found' := Except.ok.inj (hfound.symm.trans hfound')
    exact forall₂_of_common hrecurs hrecurs' Expanded.Recurs.join
  · intro hactive hroom results h
    obtain ⟨results', h', -⟩ := expandCall_recurs hroom hname hbody hactive h
    exact ⟨results', h'⟩

/-- A call whose text has a blank line, a command and a call of its own: outside every call, and
    inside one that is written elsewhere. -/
theorem expandCall_everywhere_nested :
    let outer : Template := ⟨"outer".toList, [['x']], "\nsay $x\n# note\ninner $x\n".toList,
      .atLine ['m'] 1⟩
    let inner : Template := ⟨"inner".toList, [['y']], "tell $y\n".toList, .atLine ['l'] 4⟩
    let site : Expanded := ⟨⟨9, [], "outer".toList, "a b".toList⟩, ['m'], []⟩
    let site' : Expanded := ⟨⟨2, "# far\n".toList, "outer".toList, "a b".toList⟩, ['n'], []⟩
    let around : Expanded := ⟨⟨7, [], "wrap".toList, []⟩, ['n'], []⟩
    let calls : CallStack := ⟨[around], ["wrap".toList]⟩
    ∃ results results', (expandCall ⟨[outer, inner]⟩ 2 outer site' calls).1 = .ok results ∧
      results.map (fun r => (r.name, r.stack.map (·.name))) =
        [([], ["wrap".toList, "outer".toList]), ("say".toList, ["wrap".toList, "outer".toList]),
          ("tell".toList, ["wrap".toList, "outer".toList, "inner".toList])] ∧
      (expandCall ⟨[outer, inner]⟩ 2 outer site {}).1 = .ok results' ∧
      List.Forall₂ (Expanded.Recurs [around, { site' with stack := [around] }] [site])
        results results' := by
  intro outer inner site site' around calls
  have hcall : (expandCall ⟨[outer, inner]⟩ 2 outer site' calls).1.toOption.map
      (List.map fun r => (r.name, r.stack.map (·.name))) =
        some [([], ["wrap".toList, "outer".toList]),
          ("say".toList, ["wrap".toList, "outer".toList]),
          ("tell".toList, ["wrap".toList, "outer".toList, "inner".toList])] := by decide +kernel
  obtain ⟨results, hok, hshape⟩ := Option.map_eq_some_iff.mp hcall
  have h := eq_ok_of_toOption hok
  have heverywhere :=
    expandCall_everywhere ⟨[outer, inner]⟩ outer site' site calls {} 2 2 rfl rfl
  obtain ⟨results', h'⟩ := heverywhere.2 (List.nil_subset _) (Nat.le_refl 2) results h
  exact ⟨results, results', h, hshape, h', heverywhere.1 results results' h h'⟩

end LineScript
