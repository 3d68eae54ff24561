import LineScript.Proofs.Chains
import LineScript.Proofs.Reading
import Mathlib.Data.List.Forall2

/-!
# The shape of a call

The text of a template is taken apart before the arguments are put in, and what is put in is not
taken apart again. So an argument can be anything, line feeds, tabs and marks of comments included,
and say anything, also the words of directives: as long as no line becomes a call of its own, a call
has one result for every line of the text, in the place of that line. The arguments decide what the
results say, and nothing else.

* `expandLines_of_plain`: the lines of a text, if none of them is a call.
* `expandCall_shape`: the results of a call, and of two calls of one template.
-/

namespace LineScript

/-- No line of the text of the template `t` becomes a call, if the arguments are those of `body`. -/
def CallsNothing (reg : Registry) (t : Template) (body : Text) : Prop :=
  ∀ line ∈ (readAll (Stream.ofText t.body)).1, ∀ name,
    substitute (parameterValue t (.ofBody (some t.params.length) body)) line.name = .ok name →
    reg.callee? name = none

/-- The expression `e` stands for the expression `raw` of a text: on its line, below its comment, in
    the file of the text. -/
structure Expanded.StandsFor (home : Text) (raw : Expression) (e : Expanded) : Prop where
  line : e.line = raw.line
  comment : e.comment = raw.comment
  file : e.file = home

/-- Two expressions that differ at most in what they say and in the calls that led to them. -/
def Expanded.SamePlace (e e' : Expanded) : Prop :=
  e' = { e with name := e'.name, body := e'.body, stack := e'.stack }

/-- What stands for one line stands in one place. -/
theorem Expanded.StandsFor.samePlace {home : Text} {raw : Expression} {e e' : Expanded}
    (h : e.StandsFor home raw) (h' : e'.StandsFor home raw) : e.SamePlace e' := by
  rcases e with ⟨⟨_, _, name, body⟩, _, stack⟩
  rcases e' with ⟨⟨_, _, name', body'⟩, _, stack'⟩
  obtain ⟨rfl, rfl, rfl⟩ := h
  obtain ⟨rfl, rfl, rfl⟩ := h'
  rfl

/-- Two lists that are related to a third one are related to each other as their members are. -/
theorem forall₂_of_common {α β γ : Type} {R : γ → α → Prop} {S : γ → β → Prop} {T : α → β → Prop}
    {cs : List γ} {as : List α} {bs : List β} (hR : List.Forall₂ R cs as)
    (hS : List.Forall₂ S cs bs) (h : ∀ {a b c}, R c a → S c b → T a b) : List.Forall₂ T as bs := by
  induction hR generalizing bs with
  | nil =>
      cases hS
      exact .nil
  | cons hfirst _ ih =>
      cases hS with
      | cons hfirst' hrest' => exact .cons (h hfirst hfirst') (ih hrest')

/-- What succeeds for every element gives one result for each, in order. -/
theorem forall₂_of_mapM_eq_ok {ε α β : Type} {as : List α} {f : α → Except ε β} {bs : List β}
    (h : as.mapM f = .ok bs) : List.Forall₂ (fun a b => f a = .ok b) as bs := by
  induction as generalizing bs with
  | nil =>
      obtain rfl := Except.ok.inj h
      exact .nil
  | cons a as ih =>
      rw [List.mapM_cons] at h
      obtain ⟨b, hb, h⟩ := exists_of_bind_eq_ok h
      obtain ⟨bs', hbs, h⟩ := exists_of_bind_eq_ok h
      obtain rfl := Except.ok.inj h
      exact .cons hb (ih hbs)

section Calls

variable {reg : Registry} {call : Template → Expanded → Calling (List Expanded)}
  {t : Template} {args : Arguments} {site : Expanded} {calls : CallStack}

/-- If no line is a call, every line is itself with its arguments put in, inside the active
    calls. -/
theorem expandLines_of_plain {lines : List Expression}
    (h : ∀ line ∈ lines, ∀ e, instantiate t args site line = .ok e → reg.callee? e.name = none) :
    (expandLines reg call t args site lines calls).1 =
      (lines.mapM (instantiate t args site)).map (List.map ({ · with stack := calls.frames })) := by
  induction lines with
  | nil => rfl
  | cons line lines ih =>
      have hrest := ih fun l hl => h l (List.mem_cons_of_mem line hl)
      rw [List.mapM_cons, expandLines]
      cases hline : instantiate t args site line with
      | error error => rfl
      | ok e =>
          have hstack := instantiate_stack hline
          have hcallee := h line List.mem_cons_self e hline
          have hself : ∃ r : Expanded, expandCommand reg call e calls = (.ok [r], calls) ∧
              r.within calls.frames = { e with stack := calls.frames } := by
            rw [expandCommand]
            split
            · exact ⟨e, rfl, by simp [Expanded.within, hstack]⟩
            · rw [hcallee]
              refine ⟨_, rfl, ?_⟩
              rw [Expanded.within]
              split
              · rfl
              · rfl
          obtain ⟨r, hexpand, hwithin⟩ := hself
          simp only [hexpand]
          rcases hmore : expandLines reg call t args site lines calls with ⟨more, after⟩
          rw [hmore] at hrest
          cases hes : lines.mapM (instantiate t args site) with
          | error error =>
              rw [hes] at hrest
              obtain rfl : more = .error error := hrest
              rfl
          | ok es =>
              rw [hes] at hrest
              obtain rfl : more = .ok (es.map ({ · with stack := calls.frames })) := hrest
              show Except.ok ([r].map (Expanded.within calls.frames) ++ _) = _
              rw [List.map_singleton, hwithin]
              rfl

/-- A line with its arguments put in stands for the line. -/
theorem standsFor_of_instantiate {line : Expression} {e : Expanded}
    (h : instantiate t args site line = .ok e) (stack : List Expanded) :
    Expanded.StandsFor t.file line { e with stack } := by
  obtain ⟨name, body, -, -, -, rfl⟩ := instantiate_eq_ok h
  exact ⟨rfl, rfl, rfl⟩

/-- A text succeeds if there is one argument for every parameter, no line is malformed, and the
    lines succeed. -/
theorem expandBody_eq_ok_iff {results : List Expanded} :
    (expandBody reg call t site calls).1 = .ok results ↔
      matchArguments t site = .ok (.ofBody (some t.params.length) site.body) ∧
      ∃ lines, parse t.body = .ok lines ∧
        (expandLines reg call t (.ofBody (some t.params.length) site.body) site lines calls).1 =
          .ok results := by
  have hargs : ∀ args, matchArguments t site = .ok args →
      args = .ofBody (some t.params.length) site.body := by
    intro args hargs
    rw [matchArguments] at hargs
    split at hargs
    · exact (Except.ok.inj hargs).symm
    · cases hargs
  rw [expandBody]
  cases hmatch : matchArguments t site with
  | error error => simp
  | ok args =>
      obtain rfl := hargs args hmatch
      rcases hread : readAll (Stream.ofText t.body) with ⟨lines, malformed⟩
      have hparse : ∀ {found}, parse t.body = .ok found ↔ malformed = none ∧ lines = found := by
        intro found
        rw [parse_eq_ok_iff, hread, Prod.mk.injEq, and_comm]
      rcases hexpand : expandLines reg call t (.ofBody (some t.params.length) site.body) site lines
        calls with ⟨error | found, after⟩
      · cases malformed <;> simp [hparse, hexpand]
      · cases malformed <;> simp [hparse, hexpand]

/-- A call that succeeds and in which no line is a call has one result for every line. -/
theorem exists_standsFor {room : Nat} {results : List Expanded} {after : CallStack}
    (hcall : expandCall reg room t site calls = (.ok results, after))
    (hplain : CallsNothing reg t site.body) :
    ∃ lines, parse t.body = .ok lines ∧ List.Forall₂ (Expanded.StandsFor t.file) lines results := by
  cases room with
  | zero => cases hcall
  | succ room =>
      rw [expandCall] at hcall
      simp only at hcall
      split at hcall
      · cases hcall
      · rename_i inner hpush
        obtain ⟨-, lines, hparse, hlines⟩ := expandBody_eq_ok_iff.mp (congrArg Prod.fst hcall)
        refine ⟨lines, hparse, ?_⟩
        rw [expandLines_of_plain] at hlines
        · cases hes : lines.mapM (instantiate t _ _) with
          | error error =>
              rw [hes] at hlines
              cases hlines
          | ok es =>
              rw [hes] at hlines
              obtain rfl := Except.ok.inj hlines
              rw [List.forall₂_map_right_iff]
              refine (forall₂_of_mapM_eq_ok hes).imp ?_
              intro line e hline
              exact standsFor_of_instantiate hline _
        · intro line hline e hinstance
          obtain ⟨name, body, hname, -, -, rfl⟩ := instantiate_eq_ok hinstance
          refine hplain line ?_ name hname
          rw [parse_eq_ok_iff.mp hparse]
          exact hline

end Calls

/-- Arguments do not change the shape of a call. If a call of a template succeeds and no line of the
    template's text becomes a call itself, the text has no malformed line, and the results are, one
    for one and in order, expressions on the lines and below the comments of those of the text, in
    the file that defines the template, whatever the call has for arguments. So any two such calls
    of a template, with any templates registered and inside any calls, have as many results, and
    these differ at most in their names, their bodies and their chains of calls. -/
theorem expandCall_shape {reg : Registry} {t : Template} {site : Expanded} {room : Nat}
    {calls after : CallStack} {results : List Expanded}
    (hcall : expandCall reg room t site calls = (.ok results, after))
    (hplain : CallsNothing reg t site.body) :
    (∃ lines, parse t.body = .ok lines ∧
      List.Forall₂ (Expanded.StandsFor t.file) lines results) ∧
    ∀ (reg' : Registry) (site' : Expanded) (room' : Nat) (calls' after' : CallStack)
      (results' : List Expanded),
      expandCall reg' room' t site' calls' = (.ok results', after') →
      CallsNothing reg' t site'.body → List.Forall₂ Expanded.SamePlace results results' := by
  obtain ⟨lines, hparse, hresults⟩ := exists_standsFor hcall hplain
  refine ⟨⟨lines, hparse, hresults⟩, ?_⟩
  intro reg' site' room' calls' after' results' hcall' hplain'
  obtain ⟨lines', hparse', hresults'⟩ := exists_standsFor hcall' hplain'
  obtain rfl := Except.ok.inj (hparse.symm.trans hparse')
  exact forall₂_of_common hresults hresults' Expanded.StandsFor.samePlace

/-- An argument that spells a definition, a comment and a continuation line makes a call like any
    other. -/
theorem expandCall_shape_hostile :
    let t : Template := ⟨"emit".toList, [['a'], ['b']], "# note\nsay-$a $b\n\n$b\n".toList,
      .atLine ['m'] 1⟩
    let tame : Expanded := { name := "emit".toList, body := "x y".toList }
    let hostile : Expanded := { name := "emit".toList, body := "define # $b\n\tinclude m".toList }
    ∃ results results', expandCall ⟨[t]⟩ 1 t tame {} = (.ok results, {}) ∧
      expandCall ⟨[t]⟩ 1 t hostile {} = (.ok results', {}) ∧
      results'.map (·.name) =
        ["say-define".toList, [], "# $b\n\tinclude m".toList] ∧
      List.Forall₂ Expanded.SamePlace results results' := by
  intro t tame hostile
  have hplain : ∀ site ∈ [tame, hostile], CallsNothing ⟨[t]⟩ t site.body := by
    intro site hsite line hline name hname
    have hall : ([tame, hostile].all fun site => (readAll (Stream.ofText t.body)).1.all fun line =>
        (substitute (parameterValue t (.ofBody (some 2) site.body)) line.name).toOption.all
          fun name => ((⟨[t]⟩ : Registry).callee? name).isNone) = true := by decide +kernel
    have hnone := List.all_eq_true.mp (List.all_eq_true.mp hall site hsite) line hline
    rw [show substitute (parameterValue t (.ofBody (some 2) site.body)) line.name = .ok name
      from hname] at hnone
    exact Option.isNone_iff_eq_none.mp hnone
  have hresult : ∀ site names,
      (expandCall ⟨[t]⟩ 1 t site {}).1.toOption.map (List.map (·.name)) = some names →
      ∃ results, expandCall ⟨[t]⟩ 1 t site {} = (.ok results, {}) ∧
        results.map (·.name) = names := by
    intro site names h
    obtain ⟨results, hok, hnames⟩ := Option.map_eq_some_iff.mp h
    exact ⟨results, Prod.ext (eq_ok_of_toOption hok) (expandCall_calls ⟨[t]⟩ 1 t site {}), hnames⟩
  obtain ⟨results, htame, -⟩ := hresult tame ["say-x".toList, [], ['y']] (by decide +kernel)
  obtain ⟨results', hhostile, hnames⟩ := hresult hostile
    ["say-define".toList, [], "# $b\n\tinclude m".toList] (by decide +kernel)
  refine ⟨results, results', htame, hhostile, hnames, ?_⟩
  exact (expandCall_shape htame (hplain tame (by simp))).2 _ _ _ _ _ _ hhostile
    (hplain hostile (by simp))

end LineScript
