import LineScript.Proofs.Agreement
import LineScript.Proofs.Chains

/-!
# The file that an `include` opens

A run and a survey find the file of an `include` by different means. A run takes the fields of the
whole body, of which there has to be one, and refuses a path into another directory or one that
spells out the extension. A survey takes the first line of the body and refuses nothing. This file
compares the two over every body, by what they take from the file system.

* `Consults`: the one file that an outcome depends on.
* `executed` and `surveyed`: what an expression comes to in a run and in a survey, whatever the
  file system.
* `consults_of_include`: the comparison.
-/

namespace LineScript

/-! ## Asking for a file -/

/-- What `outcome` takes from the file system is what the file `name` opens to, and nothing else;
    and that it takes. -/
structure Consults {β : Type} (outcome : FileSystem → β) (name : Text) : Prop where
  only : ∀ fs fs', fs.access name = fs'.access name → outcome fs = outcome fs'
  indeed : ∃ fs fs', outcome fs ≠ outcome fs'

/-- The file system in which there is the one file `name`, and it is empty. -/
def FileSystem.single (name : Text) : FileSystem := { files := [(name, .ok [])] }

theorem FileSystem.access_single (name : Text) : (single name).access name = .ok [] := by
  simp [access, single]

variable {β : Type} {outcome : FileSystem → β} {name : Text}

/-- There is one such file at most. -/
theorem Consults.unique (h : Consults outcome name) {other : Text}
    (hother : Consults outcome other) : name = other := by
  refine Classical.byContradiction fun hne => ?_
  obtain ⟨fs, fs', hdiffer⟩ := h.indeed
  -- a file system that is `fs` for the one file and `fs'` for the other
  let mixed : FileSystem :=
    { files := [(name, fs.access name), (other, fs'.access other)] }
  have hname : mixed.access name = fs.access name := by
    simp [mixed, FileSystem.access]
  have hname' : mixed.access other = fs'.access other := by
    simp [mixed, FileSystem.access, hne]
  exact hdiffer ((h.only fs mixed hname.symm).trans (hother.only mixed fs' hname'))

/-! ## In a run -/

namespace Expander

/-- What an expression of `file` comes to when a run in the state `x` carries it out over the file
    system `fs`: what it gives, and the state behind it, apart from the file system. -/
def executed (o : Options) (raw : Expression) (fs : FileSystem) (x : Expander) (file : Text) :
    Except ExpansionError (List Expanded) × Expander :=
  (({ x with fs, options := o }.execute (.ofExpression raw file)).1,
    { ({ x with fs, options := o }.execute (.ofExpression raw file)).2 with fs := x.fs })

/-- A run refuses an expression, whatever its state and whatever files there are. -/
def Refuses (o : Options) (raw : Expression) (cause : Cause) : Prop :=
  ∀ fs x file, executed o raw fs x file =
    (.error ⟨.ofExpression raw file, cause⟩, { x with options := o })

variable {o : Options} {raw : Expression} {target : Text} {cause : Cause}

/-- An `include` that names a file comes to that file, unless it is open. -/
theorem executed_of_target (hname : raw.name = includeWord)
    (htarget : includeTarget o raw.body = .ok target) (fs : FileSystem) (x : Expander)
    (file : Text) :
    executed o raw fs x file =
      if x.includes.contains target then
        (.error ⟨.ofExpression raw file, .includeCycle (x.includes.cycle target)⟩,
          { x with options := o })
      else match fs.access target with
        | .ok stream => (.ok [],
          { x with
            options := o
            includes := ⟨target :: x.includes.opened⟩
            files := ⟨target, .ofStream stream⟩ :: x.files })
        | .error error =>
            (.error ⟨.ofExpression raw file, .unopened target error⟩, { x with options := o }) := by
  have hword : (Expanded.ofExpression raw file).name = includeWord := hname
  have hbody : includeTarget o (Expanded.ofExpression raw file).body = .ok target := htarget
  rw [executed, execute, if_neg (hword ▸ defineWord_ne_includeWord.symm), if_pos hword, splice]
  simp only [hbody, bind, Except.bind, IncludeStack.push?]
  by_cases hopen : x.includes.contains target = true
  · rw [if_pos hopen, if_pos hopen]
  · rw [if_neg hopen, if_neg hopen]
    cases fs.access target with
    | ok stream => rfl
    | error error => rfl

/-- An `include` that names none is refused. -/
theorem refuses_of_target (hname : raw.name = includeWord)
    (htarget : includeTarget o raw.body = .error cause) : Refuses o raw cause := by
  intro fs x file
  have hword : (Expanded.ofExpression raw file).name = includeWord := hname
  have hbody : includeTarget o (Expanded.ofExpression raw file).body = .error cause := htarget
  have hexec : execute { x with fs, options := o } (.ofExpression raw file) =
      (.error ⟨.ofExpression raw file, cause⟩, { x with fs, options := o }) := by
    rw [execute, if_neg (hword ▸ defineWord_ne_includeWord.symm), if_pos hword, splice]
    simp only [hbody, bind, Except.bind]
  rw [executed, hexec]

/-- The run asks for the file that an `include` names. -/
theorem consults_of_target (hname : raw.name = includeWord)
    (htarget : includeTarget o raw.body = .ok target) : Consults (executed o raw) target := by
  constructor
  case only =>
    intro fs fs' haccess
    funext x file
    rw [executed_of_target hname htarget, executed_of_target hname htarget, haccess]
  case indeed =>
    -- with no file open, it matters whether the file is there
    refine ⟨.single target, { files := [] }, fun hsame => ?_⟩
    have hx := congrFun (congrFun hsame { fs := { files := [] }, options := o }) []
    rw [executed_of_target hname htarget, executed_of_target hname htarget,
      FileSystem.access_single] at hx
    cases congrArg Prod.fst hx

/-- It asks for no other. -/
theorem consults_iff (hname : raw.name = includeWord) :
    Consults (executed o raw) target ↔ includeTarget o raw.body = .ok target := by
  refine ⟨fun h => ?_, consults_of_target hname⟩
  cases htarget : includeTarget o raw.body with
  | ok other => rw [(consults_of_target hname htarget).unique h]
  | error cause =>
      -- a refusal does not depend on any file
      obtain ⟨fs, fs', hdiffer⟩ := h.indeed
      refine absurd ?_ hdiffer
      funext x file
      rw [refuses_of_target hname htarget fs, refuses_of_target hname htarget fs']

theorem refuses_iff (hname : raw.name = includeWord) :
    Refuses o raw cause ↔ includeTarget o raw.body = .error cause := by
  refine ⟨fun h => ?_, refuses_of_target hname⟩
  have hnone := h { files := [] } { fs := { files := [] }, options := o } []
  cases htarget : includeTarget o raw.body with
  | ok target =>
      have hsome := h (.single target) { fs := { files := [] }, options := o } []
      rw [executed_of_target hname htarget, FileSystem.access_single] at hsome
      cases congrArg Prod.fst hsome
  | error other =>
      rw [refuses_of_target hname htarget] at hnone
      have hsame := Except.error.inj (congrArg Prod.fst hnone)
      exact congrArg Except.error (congrArg ExpansionError.cause hsame)

end Expander

/-! ## In a survey -/

/-- What an expression of `file` comes to in a survey over the file system `fs`. -/
def surveyed (o : Options) (raw : Expression) (fs : FileSystem)
    (visit : Text → Text → Survey → Survey) (file : Text) (s : Survey) : Survey :=
  surveyExpression fs o visit file s raw

section Surveys

variable {o : Options} {raw : Expression} {target : Text}

/-- A survey asks for the file that an `include` names to it. -/
theorem consults_surveyed (hname : raw.name = includeWord)
    (htarget : surveyTarget o raw.body = some target) : Consults (surveyed o raw) target := by
  have hdefine : raw.name ≠ defineWord := hname ▸ defineWord_ne_includeWord.symm
  constructor
  case only =>
    intro fs fs' haccess
    funext visit file s
    simp only [surveyed, surveyExpression, if_neg hdefine, if_pos hname, htarget,
      FileSystem.readText, haccess]
  case indeed =>
    -- it matters if the visit of a file leaves a trace
    refine ⟨.single target, { files := [] }, fun hsame => ?_⟩
    have hs := congrFun (congrFun (congrFun hsame fun name _ s => { s with seen := [name] }) []) {}
    simp only [surveyed, surveyExpression, if_neg hdefine, if_pos hname, htarget,
      FileSystem.readText, FileSystem.access_single] at hs
    cases congrArg Survey.seen hs

/-- It asks for none if an `include` names none to it. -/
theorem surveyed_eq_of_none (hname : raw.name = includeWord)
    (htarget : surveyTarget o raw.body = none) (fs fs' : FileSystem) :
    surveyed o raw fs = surveyed o raw fs' := by
  have hdefine : raw.name ≠ defineWord := hname ▸ defineWord_ne_includeWord.symm
  funext visit file s
  simp only [surveyed, surveyExpression, if_neg hdefine, if_pos hname, htarget]

/-- A blank first line names no file to a survey. -/
theorem surveyTarget_of_blank (o : Options) {body : Text}
    (hblank : ∀ c ∈ (Text.cutLine body).1, isBlank c = true) : surveyTarget o body = none := by
  rw [surveyTarget, Text.trim_eq_nil_iff.mpr hblank]

/-- Any other names one. -/
theorem surveyTarget_of_solid (o : Options) {body : Text}
    (hsolid : ∃ c ∈ (Text.cutLine body).1, isBlank c = false) :
    surveyTarget o body = some (Text.trim (Text.cutLine body).1 ++ o.suffix) := by
  rw [surveyTarget]
  split
  · rename_i hnone
    obtain ⟨c, hc, hsolid⟩ := hsolid
    rw [Text.trim_eq_nil_iff.mp hnone c hc] at hsolid
    cases hsolid
  · rfl

end Surveys

/-! ## Both -/

/-- Why an `include` is refused: there is no path, there are several, or the one path leads into
    another directory or ends with the extension. -/
theorem includeTarget_eq_error {o : Options} {body : Text} {cause : Cause}
    (h : includeTarget o body = .error cause) :
    (cause = .missingIncludePath ∧ body = []) ∨
      (∃ count, cause = .includeArguments count ∧ 2 ≤ count) ∨
      (∃ path, cause = .includeSeparator path ∧ '/' ∈ path) ∨
      ∃ path, cause = .includeExtension path o.suffix ∧ o.suffix ≠ [] ∧ o.suffix <:+ path := by
  rw [includeTarget] at h
  simp only at h
  split at h
  · rename_i hsize
    refine .inl ⟨(Except.error.inj h).symm, Classical.byContradiction fun hbody => ?_⟩
    rw [Arguments.size, Arguments.ofBody, splitArguments_none hbody] at hsize
    cases hsize
  · split at h
    · rename_i hpath
      exact .inr (.inr (.inl ⟨_, (Except.error.inj h).symm, List.contains_iff_mem.mp hpath⟩))
    · split at h
      · rename_i hsuffix
        obtain ⟨hne, hends⟩ := Bool.and_eq_true_iff.mp hsuffix
        exact .inr (.inr (.inr ⟨_, (Except.error.inj h).symm, of_decide_eq_true hne,
          List.isSuffixOf_iff_suffix.mp hends⟩))
      · cases h
  · rename_i hzero hone
    have hpositive : (Arguments.ofBody none body).size ≠ 0 := hzero
    have hseveral : (Arguments.ofBody none body).size ≠ 1 := hone
    refine .inr (.inl ⟨_, (Except.error.inj h).symm, ?_⟩)
    omega

/-- A run and a survey agree on the file of an `include` as far as the run splices one. The run
    asks for a file, or refuses the `include` whatever files there are. If it asks for a file, then
    the survey asks for no other, and for this one unless the first line of the body is blank. If
    it refuses, for one of the four reasons, the survey, which refuses nothing, asks for the file
    that the first line names, and for none only if that line is blank, as it is if no path is
    given. -/
theorem consults_of_include (o : Options) (line : Nat) (comment body : Text) :
    let raw : Expression := ⟨line, comment, includeWord, body⟩
    let first := (Text.cutLine body).1
    ((∃ file, Consults (Expander.executed o raw) file) ∨ ∃ cause, Expander.Refuses o raw cause) ∧
    (∀ file, Consults (Expander.executed o raw) file →
      (∀ fs fs', fs.access file = fs'.access file → surveyed o raw fs = surveyed o raw fs') ∧
      ((∃ c ∈ first, isBlank c = false) → Consults (surveyed o raw) file)) ∧
    ∀ cause, Expander.Refuses o raw cause →
      (cause = .missingIncludePath ∨
        (∃ count, cause = .includeArguments count ∧ 2 ≤ count) ∨
        (∃ path, cause = .includeSeparator path ∧ '/' ∈ path) ∨
        ∃ path, cause = .includeExtension path o.suffix ∧ o.suffix ≠ [] ∧ o.suffix <:+ path) ∧
      ((∃ c ∈ first, isBlank c = false) →
        cause ≠ .missingIncludePath ∧ Consults (surveyed o raw) (Text.trim first ++ o.suffix)) ∧
      ((∀ c ∈ first, isBlank c = true) → ∀ fs fs', surveyed o raw fs = surveyed o raw fs') := by
  intro raw first
  have hname : raw.name = includeWord := rfl
  refine ⟨?_, ?_, ?_⟩
  · cases htarget : includeTarget o body with
    | ok file => exact .inl ⟨file, (Expander.consults_iff hname).mpr htarget⟩
    | error cause => exact .inr ⟨cause, (Expander.refuses_iff hname).mpr htarget⟩
  · intro file hfile
    have htarget := (Expander.consults_iff hname).mp hfile
    have hagree := fun hsolid =>
      consults_surveyed hname (surveyTarget_of_includeTarget htarget hsolid)
    refine ⟨fun fs fs' haccess => ?_, hagree⟩
    by_cases hsolid : ∃ c ∈ first, isBlank c = false
    · exact (hagree hsolid).only fs fs' haccess
    · exact surveyed_eq_of_none hname (surveyTarget_of_blank o fun c hc => by
        cases hc' : isBlank c with
        | true => rfl
        | false => exact absurd ⟨c, hc, hc'⟩ hsolid) fs fs'
  · intro cause hrefuses
    have hcause := includeTarget_eq_error ((Expander.refuses_iff hname).mp hrefuses)
    refine ⟨hcause.imp_left And.left, fun hsolid => ⟨?_, ?_⟩, fun hblank fs fs' => ?_⟩
    · rintro rfl
      rcases hcause with ⟨-, rfl⟩ | ⟨_, hother, -⟩ | ⟨_, hother, -⟩ | ⟨_, hother, -⟩
      · obtain ⟨c, hc, -⟩ := hsolid
        exact absurd hc List.not_mem_nil
      · cases hother
      · cases hother
      · cases hother
    · exact consults_surveyed hname (surveyTarget_of_solid o hsolid)
    · exact surveyed_eq_of_none hname (surveyTarget_of_blank o hblank) fs fs'

/-- Where they do not agree: a run refuses a path into another directory, and a survey asks for the
    file; and a run splices a path below the first line, where a survey does not look. -/
theorem consults_differ :
    let nested : Expression := ⟨1, [], includeWord, "a/b".toList⟩
    let below : Expression := ⟨2, [], includeWord, "\nlib".toList⟩
    readAll (.ofText "include a/b\ninclude\n\tlib\n".toList) = ([nested, below], none) ∧
      (Expander.Refuses {} nested (.includeSeparator "a/b".toList) ∧
        Consults (surveyed {} nested) "a/b.linebased".toList) ∧
      Consults (Expander.executed {} below) "lib.linebased".toList ∧
        ¬Consults (surveyed {} below) "lib.linebased".toList := by
  intro nested below
  refine ⟨by decide +kernel, ⟨?_, ?_⟩, ?_, ?_⟩
  · have hfields : splitArguments none "a/b".toList = ["a/b".toList] := by decide +kernel
    refine Expander.refuses_of_target rfl ?_
    show includeTarget {} "a/b".toList = _
    rw [includeTarget, Arguments.ofBody, hfields]
    rfl
  · have htarget : surveyTarget {} nested.body = some "a/b.linebased".toList := by decide +kernel
    exact consults_surveyed rfl htarget
  · have htarget : (includeTarget {} below.body).toOption = some "lib.linebased".toList := by
      decide +kernel
    exact Expander.consults_of_target rfl (eq_ok_of_toOption htarget)
  · intro hconsults
    have htarget : surveyTarget {} below.body = none := by decide +kernel
    obtain ⟨fs, fs', hdiffer⟩ := hconsults.indeed
    exact hdiffer (surveyed_eq_of_none rfl htarget fs fs')

end LineScript
