import LineScript.Document.Basic
import LineScript.Expansion.Call
import LineScript.Proofs.Fields
import LineScript.Proofs.Trimming

/-!
# Two ways to count arguments

A document warns of a call with too few arguments, and a run refuses one. They count differently.
The document lets one more argument be split off than the template has parameters and counts those
that are not blank. The run lets as many be split off as there are parameters, so that the last one
takes the rest, and counts all of them. The layout of the body decides between the two counts: they
agree wherever there is a field, and a body without one tells them apart in a single case.

* `Layout.suppliedArguments_text`: the count of a document, where there is a field.
* `suppliedArguments_of_blank`, `length_splitArguments_of_blank`: both counts, where there is none.
* `arity_checks_agree`: the two checks, for every body and every number of parameters.
-/

namespace LineScript

/-! ## Bodies with a field -/

namespace Layout

variable (l : Layout)

/-- The text from a field on has a character that is no blank. -/
theorem exists_solid_textFrom {i : Nat} (h : i < l.fields.length) :
    ∃ c ∈ l.textFrom i, isBlank c = false := by
  have hlt : i < l.runs.length := by simpa [fields] using h
  obtain ⟨c, field, hfield⟩ := List.exists_cons_of_ne_nil l.runs[i].ne_nil
  refine ⟨c, ?_, l.runs[i].solid c (by rw [hfield]; exact List.mem_cons_self)⟩
  rw [textFrom, List.drop_eq_getElem_cons hlt, List.flatMap_cons, Run.text, hfield]
  exact List.mem_cons_self

/-- A field has only characters that are no blanks. -/
theorem exists_solid_field {f : Text} (h : f ∈ l.fields) : ∃ c ∈ f, isBlank c = false := by
  obtain ⟨r, -, rfl⟩ := List.mem_map.mp h
  obtain ⟨c, field, hfield⟩ := List.exists_cons_of_ne_nil r.ne_nil
  have hc : c ∈ r.field := by
    rw [hfield]
    exact List.mem_cons_self
  exact ⟨c, hc, r.solid c hc⟩

/-- No argument of a text with a field is blank, also not one that takes the rest. -/
theorem exists_solid_argument (hfields : l.fields ≠ []) (n : Nat) {arg : Text}
    (harg : arg ∈ splitArguments (some (n + 1)) l.text) : ∃ c ∈ arg, isBlank c = false := by
  have hpos : 0 < l.fields.length := List.length_pos_iff.mpr hfields
  cases n with
  | zero =>
      obtain ⟨c, hc, hsolid⟩ := l.exists_solid_textFrom hpos
      have hmem : c ∈ l.text := (l.textFrom_isSuffix 0).mem hc
      rw [splitArguments_one (List.ne_nil_of_mem hmem), List.mem_singleton] at harg
      exact harg ▸ ⟨c, hmem, hsolid⟩
  | succ n =>
      rw [l.splitArguments_text_some n hfields] at harg
      split at harg
      · exact l.exists_solid_field harg
      · rename_i hroom
        rcases List.mem_append.mp harg with harg | harg
        · exact l.exists_solid_field (List.mem_of_mem_take harg)
        · rw [List.mem_singleton.mp harg]
          exact l.exists_solid_textFrom (by omega)

/-- A document counts the fields, up to one more than there are parameters. -/
theorem suppliedArguments_text (hfields : l.fields ≠ []) (n : Nat) :
    suppliedArguments l.text n = min (n + 1) l.fields.length := by
  rw [suppliedArguments, ← l.length_splitArguments hfields (n + 1), List.countP_eq_length]
  intro arg harg
  obtain ⟨c, hc, hsolid⟩ := l.exists_solid_argument hfields n harg
  rw [decide_eq_true_eq]
  intro htrim
  rw [Text.trim_eq_nil_iff.mp htrim c hc] at hsolid
  cases hsolid

end Layout

/-! ## Bodies without a field -/

section Blank

variable {body : Text} (hblank : ∀ c ∈ body, isBlank c = true)

include hblank

/-- In a blank body a document counts no argument. -/
theorem suppliedArguments_of_blank (n : Nat) : suppliedArguments body n = 0 := by
  have htrim : Text.trim body = [] := Text.trim_eq_nil_iff.mpr hblank
  by_cases hempty : body = []
  · rw [suppliedArguments, hempty, splitArguments_nil]
    rfl
  · cases n with
    | zero =>
        rw [suppliedArguments, splitArguments_one hempty]
        simp [htrim]
    | succ n =>
        rw [suppliedArguments, splitArguments_blank (by simp) (by simp) hempty hblank]
        rfl

/-- A run counts one argument in it, if there is a parameter to take it and any blank at all. -/
theorem length_splitArguments_of_blank (n : Nat) :
    (splitArguments (some n) body).length = if n = 0 ∨ body = [] then 0 else 1 := by
  by_cases hempty : body = []
  · rw [if_pos (.inr hempty), hempty, splitArguments_nil]
    rfl
  · rcases n with _ | _ | n
    · rw [if_pos (.inl rfl), splitArguments_zero]
      rfl
    · rw [if_neg (by simp [hempty]), splitArguments_one hempty]
      rfl
    · rw [if_neg (by simp [hempty]), splitArguments_blank (by simp) (by simp) hempty hblank]
      rfl

end Blank

/-! ## The two checks -/

/-- Blanks and nothing else, for a template of one parameter. -/
def SoleBlank (n : Nat) (body : Text) : Prop :=
  n = 1 ∧ body ≠ [] ∧ ∀ c ∈ body, isBlank c = true

section Counts

variable (body : Text) (n : Nat)

/-- Only blanks for a single parameter are too little for a document and enough for a run. -/
theorem suppliedArguments_lt_iff (hsole : ¬SoleBlank n body) :
    suppliedArguments body n < n ↔ (splitArguments (some n) body).length ≠ n := by
  obtain ⟨l, rfl⟩ := Layout.exists_text_eq body
  by_cases hfields : l.fields = []
  · have hblank := l.isBlank_of_fields_eq_nil hfields
    rw [suppliedArguments_of_blank hblank, length_splitArguments_of_blank hblank]
    by_cases hempty : l.text = []
    · rw [if_pos (.inr hempty)]
      omega
    · have hn : n ≠ 1 := fun hn => hsole ⟨hn, hempty, hblank⟩
      split <;> omega
  · rw [l.suppliedArguments_text hfields, l.length_splitArguments hfields]
    omega

theorem suppliedArguments_of_soleBlank (hsole : SoleBlank n body) :
    suppliedArguments body n < n ∧ (splitArguments (some n) body).length = n := by
  obtain ⟨rfl, hempty, hblank⟩ := hsole
  rw [suppliedArguments_of_blank hblank, length_splitArguments_of_blank hblank,
    if_neg (by simp [hempty])]
  exact ⟨Nat.one_pos, rfl⟩

/-- Where both find too few, they find as many, unless the body is blanks and nothing else. -/
theorem suppliedArguments_eq (hfew : suppliedArguments body n < n)
    (hbody : body = [] ∨ ∃ c ∈ body, isBlank c = false) :
    suppliedArguments body n = (splitArguments (some n) body).length := by
  rcases hbody with rfl | ⟨c, hc, hsolid⟩
  · rw [splitArguments_nil, suppliedArguments_of_blank (by simp)]
    rfl
  · obtain ⟨l, rfl⟩ := Layout.exists_text_eq body
    have hfields : l.fields ≠ [] := by
      intro hnone
      rw [l.isBlank_of_fields_eq_nil hnone c hc] at hsolid
      cases hsolid
    rw [l.suppliedArguments_text hfields] at hfew ⊢
    rw [l.length_splitArguments hfields]
    omega

end Counts

/-- The warning that a call has only `k` of `n` arguments. -/
def missingArguments (e : Expression) (n k : Nat) : Issue :=
  ⟨e.line, s!"{String.ofList e.name} requires {n} argument(s), got {k}"⟩

section Checks

variable {document : Text} {d : Definition} {e : Expression} {t : Template} {site : Expanded}
  {n : Nat} {body : Text}

/-- The warning of a document about a call that stands behind its definition. -/
theorem callIssue_eq (hparams : d.params.length = n) (hbody : e.body = body)
    (hbehind : ¬(d.file = document ∧ e.line < d.line)) :
    callIssue document d e =
      if suppliedArguments body n < n then some (missingArguments e n (suppliedArguments body n))
      else none := by
  subst hparams hbody
  exact if_neg hbehind

/-- The refusal of a run. -/
theorem matchArguments_eq (hparams : t.params.length = n) (hbody : site.body = body) :
    matchArguments t site =
      if (splitArguments (some n) body).length = n then .ok ⟨splitArguments (some n) body⟩
      else .error ⟨site, .argumentCount t.name n (splitArguments (some n) body).length⟩ := by
  subst hparams hbody
  rfl

end Checks

/-- Documents and runs agree on missing arguments, in all but one case. For every body and every
    number `n` of parameters, a document finds fewer arguments than parameters exactly if a run
    does not find as many, unless `n` is 1 and the body is blanks and nothing else, which is too
    little for a document and enough for a run. If both find fault with a body that is empty or
    has a character that is no blank, they find the same number. So they warn of and refuse the same
    calls, of a template whose definition does not stand further down, and show these numbers in
    their messages. -/
theorem arity_checks_agree (body : Text) (n : Nat) :
    let supplied := suppliedArguments body n
    let actual := (splitArguments (some n) body).length
    (¬SoleBlank n body → (supplied < n ↔ actual ≠ n)) ∧
    (SoleBlank n body → supplied < n ∧ actual = n) ∧
    (supplied < n → actual ≠ n → (body = [] ∨ ∃ c ∈ body, isBlank c = false) →
      supplied = actual) ∧
    ∀ (document : Text) (d : Definition) (e : Expression) (t : Template) (site : Expanded),
      d.params.length = n → e.body = body → ¬(d.file = document ∧ e.line < d.line) →
      t.params.length = n → site.body = body →
      (¬SoleBlank n body → ((∃ issue, callIssue document d e = some issue) ↔
        ∃ error, matchArguments t site = .error error)) ∧
      (SoleBlank n body → (∃ issue, callIssue document d e = some issue) ∧
        ∃ args, matchArguments t site = .ok args) ∧
      (∀ issue, callIssue document d e = some issue → issue.line = e.line ∧ issue.message =
        s!"{String.ofList e.name} requires {n} argument(s), got {supplied}") ∧
      ∀ error, matchArguments t site = .error error → error.expr = site ∧ error.cause.message =
        s!"template {quoted t.name} expects {n} arguments, got {actual}" := by
  intro supplied actual
  have hagree : ¬SoleBlank n body → (supplied < n ↔ actual ≠ n) := suppliedArguments_lt_iff body n
  have hsole : SoleBlank n body → supplied < n ∧ actual = n :=
    suppliedArguments_of_soleBlank body n
  refine ⟨hagree, hsole, fun hfew _ hbody => suppliedArguments_eq body n hfew hbody, ?_⟩
  intro document d e t site hparams hbody hbehind hparams' hbody'
  rw [callIssue_eq hparams hbody hbehind, matchArguments_eq hparams' hbody']
  have hwarns : (∃ issue, (if supplied < n then some (missingArguments e n supplied) else none) =
      some issue) ↔ supplied < n := by
    split <;> simp [*]
  have hrefuses : (∃ error, (if actual = n then .ok ⟨splitArguments (some n) body⟩
      else .error ⟨site, .argumentCount t.name n actual⟩ : Except ExpansionError Arguments) =
      .error error) ↔ actual ≠ n := by
    split <;> simp [*]
  refine ⟨fun h => ?_, fun h => ?_, ?_, ?_⟩
  · rw [hwarns, hrefuses]
    exact hagree h
  · exact ⟨hwarns.mpr (hsole h).1, _, if_pos (hsole h).2⟩
  · intro issue hissue
    split at hissue
    · obtain rfl := Option.some.inj hissue
      exact ⟨rfl, rfl⟩
    · cases hissue
  · intro error herror
    split at herror
    · cases herror
    · obtain rfl := Except.error.inj herror
      exact ⟨rfl, rfl⟩

end LineScript
