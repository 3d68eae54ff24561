import LineScript.Proofs.Fields
import LineScript.Proofs.Printing
import LineScript.Proofs.Targets
import Mathlib.Data.List.DropRight

/-!
# Splices that name no file

A splice is refused before any file is asked for if it names no file or several. What counts is the
number of arguments, and a body of blanks has one, the empty text. So a splice without a file is
refused only if nothing at all is left of its body. The reader takes away the spaces and tabs behind
the word, but no other blanks, and no line feeds of empty continuation lines: where such are left,
the run asks for the file that is named by the extension alone.

* `includeTarget_eq_missing_iff`, `includeTarget_blank`, `includeTarget_eq_arguments_iff`: the file
  of a splice, by the fields of its body.
* `Expander.Refuses.read`: a run that comes to a splice that is refused.
* `pathless_include`: splices without a file, and splices with several.
-/

namespace LineScript

section Targets

variable {o : Options} {body : Text}

/-- A splice is refused for want of a path if its body is empty. -/
theorem includeTarget_eq_missing_iff :
    includeTarget o body = .error .missingIncludePath ↔ body = [] := by
  constructor
  · intro h
    rcases includeTarget_eq_error h with ⟨-, hempty⟩ | ⟨_, hother, -⟩ | ⟨_, hother, -⟩ |
      ⟨_, hother, -⟩
    · exact hempty
    · cases hother
    · cases hother
    · cases hother
  · rintro rfl
    rw [includeTarget, Arguments.ofBody, splitArguments_nil]
    rfl

/-- Blanks that are not taken away name the file of the empty path. -/
theorem includeTarget_blank (hne : body ≠ []) (hblank : ∀ c ∈ body, isBlank c = true) :
    includeTarget o body = .ok o.suffix := by
  have hargs : splitArguments none body = [[]] :=
    splitArguments_blank (by simp) (by simp) hne hblank
  -- an extension is not the end of the empty path unless it is empty itself
  have hsuffix : ¬(o.suffix ≠ [] && o.suffix.isSuffixOf []) = true := by
    simp
  rw [includeTarget, Arguments.ofBody, hargs]
  exact if_neg hsuffix

/-- Several arguments are several fields. -/
theorem length_splitArguments_none_iff {k : Nat} (hk : 2 ≤ k) :
    (splitArguments none body).length = k ↔ (Text.fields body).length = k := by
  obtain ⟨l, rfl⟩ := Layout.exists_text_eq body
  rw [l.splitArguments_text_none]
  by_cases hempty : l.text = []
  · rw [if_pos hempty, hempty]
    exact Iff.rfl
  · rw [if_neg hempty, l.fields_text]
    by_cases hfields : l.fields = []
    · rw [if_pos hfields, hfields, List.length_singleton, List.length_nil]
      omega
    · rw [if_neg hfields]

/-- A splice is refused for having several paths if there are several fields in its body. -/
theorem includeTarget_eq_arguments_iff {k : Nat} :
    includeTarget o body = .error (.includeArguments k) ↔
      2 ≤ k ∧ (Text.fields body).length = k := by
  constructor
  · intro h
    obtain ⟨hmissing, -⟩ | ⟨count, hcount, hseveral⟩ | ⟨_, hother, -⟩ | ⟨_, hother, -⟩ :=
      includeTarget_eq_error h
    · cases hmissing
    · obtain rfl : k = count := Cause.includeArguments.inj hcount
      refine ⟨hseveral, (length_splitArguments_none_iff hseveral).mp ?_⟩
      rw [includeTarget] at h
      simp only at h
      split at h
      · cases h
      · split at h
        · cases h
        · split at h
          · cases h
          · cases h
      · exact Cause.includeArguments.inj (Except.error.inj h)
    · cases hother
    · cases hother
  · rintro ⟨hseveral, hfields⟩
    have hsize : (Arguments.ofBody none body).size = k :=
      (length_splitArguments_none_iff hseveral).mpr hfields
    rw [includeTarget]
    simp only [hsize]
    split
    · omega
    · omega
    · rfl

/-- A body that the reader gives is empty if there is nothing but spaces and tabs in it. -/
theorem body_eq_nil_of_mem_readFrom (n : Nat) (s : Stream) :
    ∀ e ∈ (readFrom n s).1, (∀ c ∈ e.body, c = ' ' ∨ c = '\t') → e.body = [] := by
  refine forall_mem_readFrom ?_ n s
  intro n s e h hspaces
  obtain ⟨line, more, rfl | ⟨t, rfl⟩⟩ := readExpression_eq_some h
  · rfl
  · have hall : ∀ c ∈ (Expression.ofText line more t).body,
        (decide (c = ' ') || decide (c = '\t')) = true := by
      intro c hc
      rw [Bool.or_eq_true, decide_eq_true_iff, decide_eq_true_iff]
      exact hspaces c hc
    -- the reader has taken away such characters already
    rw [← List.dropWhile_eq_nil_iff.mpr hall]
    exact (List.dropWhile_idempotent ..).symm

end Targets

/-! ## Runs -/

namespace Expander

variable {x : Expander} {raw : Expression} {file : Text} {cause : Cause}

/-- A run that comes to an expression that it refuses ends there, and hands out nothing of it. -/
theorem Refuses.read (h : Refuses x.options raw cause)
    (hfaces : x.Faces (.ofExpression raw file)) :
    ∃ y, x.read = (.error ⟨.ofExpression raw file, cause⟩, y) ∧ y.pending = [] := by
  refine hfaces.read_of_failure fun files => ?_
  let z : Expander := { x with files }
  let site := Expanded.ofExpression raw file
  have hexec : executed x.options raw x.fs z file = (.error ⟨site, cause⟩, z) := h x.fs z file
  have hcause : (z.execute site).1 = .error ⟨site, cause⟩ := congrArg Prod.fst hexec
  have hleft : (z.execute site).2.pending = x.pending := congrArg (·.2.pending) hexec
  exact ⟨(z.execute site).2, Prod.ext hcause rfl, hleft⟩

end Expander

/-! ## Splices without a file -/

/-- When splices without a file are refused. A run fails for want of a path, whatever files there
    are, at a splice of which nothing is left behind the word, and at no other; so it does wherever
    there were only spaces and tabs. Other blanks and empty continuation lines are left, and at a
    body of such the run does not fail by itself: it takes the file that is named by the extension
    alone. At two or more paths it fails with their number. A splice that is refused ends the run
    that comes to it. -/
theorem pathless_include (o : Options) (line : Nat) (comment body : Text) :
    let raw : Expression := ⟨line, comment, includeWord, body⟩
    (Expander.Refuses o raw .missingIncludePath ↔ body = []) ∧
    (∀ s, raw ∈ (readAll s).1 → (∀ c ∈ body, c = ' ' ∨ c = '\t') →
      Expander.Refuses o raw .missingIncludePath) ∧
    (body ≠ [] → (∀ c ∈ body, isBlank c = true) → Consults (Expander.executed o raw) o.suffix) ∧
    (∀ k, Expander.Refuses o raw (.includeArguments k) ↔
      2 ≤ k ∧ (Text.fields body).length = k) ∧
    ∀ cause, Expander.Refuses o raw cause → ∀ (x : Expander) (file : Text), x.options = o →
      x.Faces (.ofExpression raw file) →
      ∃ y, x.read = (.error ⟨.ofExpression raw file, cause⟩, y) ∧ y.pending = [] := by
  intro raw
  have hmissing : Expander.Refuses o raw .missingIncludePath ↔ body = [] :=
    (Expander.refuses_iff rfl).trans includeTarget_eq_missing_iff
  refine ⟨hmissing, ?_, ?_, ?_, ?_⟩
  · intro s hraw hspaces
    exact hmissing.mpr (body_eq_nil_of_mem_readFrom 0 s raw hraw hspaces)
  · intro hne hblank
    exact Expander.consults_of_target rfl (includeTarget_blank hne hblank)
  · intro k
    exact (Expander.refuses_iff rfl).trans includeTarget_eq_arguments_iff
  · rintro cause hrefuses x file rfl hfaces
    exact hrefuses.read hfaces

/-- The text is a splice with one empty continuation line. Its body is a line feed, and the run asks
    for the file `.linebased`, which is not there. -/
theorem pathless_include_continued :
    let raw : Expression := ⟨1, [], includeWord, ['\n']⟩
    let text := "include\n\t\n".toList
    let fs := FileSystem.ofList [("main.lb".toList, .ok (.ofText text))]
    (readAll (Stream.ofText text)).1 = [raw] ∧
    (∀ c ∈ raw.body, isBlank c = true) ∧
    ¬Expander.Refuses {} raw .missingIncludePath ∧
    Consults (Expander.executed {} raw) ".linebased".toList ∧
    ∃ y, (Expander.start fs {} "main.lb".toList).read =
      (.error ⟨.ofExpression raw "main.lb".toList, .unopened ".linebased".toList .missing⟩, y) := by
  intro raw text fs
  have hread : readAll (Stream.ofText text) = ([raw], none) := by decide +kernel
  have hblank : ∀ c ∈ raw.body, isBlank c = true := List.all_eq_true.mp (by decide)
  obtain ⟨hmissing, -, hconsults, -, -⟩ := pathless_include {} 1 [] ['\n']
  refine ⟨congrArg Prod.fst hread, hblank, ?_, ?_, ?_⟩
  · intro hrefuses
    cases hmissing.mp hrefuses
  · exact hconsults (by decide) hblank
  · let error : ExpansionError :=
      ⟨.ofExpression raw "main.lb".toList, .unopened ".linebased".toList .missing⟩
    have hgiven : (match (Expander.start fs {} "main.lb".toList).read.1 with
        | .ok _ => none
        | .error error => some error) = some error := by
      decide +kernel
    refine ⟨(Expander.start fs {} "main.lb".toList).read.2, Prod.ext ?_ rfl⟩
    cases hfirst : (Expander.start fs {} "main.lb".toList).read.1 with
    | ok found =>
        rw [hfirst] at hgiven
        cases hgiven
    | error other =>
        rw [hfirst] at hgiven
        exact congrArg Except.error (Option.some.inj hgiven)

end LineScript
