import LineScript.Proofs.Reached

/-!
# What a run without errors registers

Results apart, an evaluation that meets no error does one thing: it takes the registered templates
at its start to those at its end. `Registers` says how, one rule for every kind of expression.

No name is registered twice (`Registry.Sound`). So once the expressions of a file have been
evaluated, every definition that they lead to is taken (`Registers.covered`), and evaluating them
once more can only succeed if they lead to no definition and register nothing
(`Registers.eq_of_covered`).
-/

namespace LineScript

/-! ## Registries -/

namespace Registry

/-- A name is defined if it is free, and then stands behind the others. -/
theorem define_eq_ok_iff {reg last : Registry} {t : Template} :
    reg.define t = .ok last ↔ reg.get? t.name = none ∧ last = ⟨reg.templates ++ [t]⟩ := by
  rw [define]
  cases hget : reg.get? t.name with
  | none => simp [eq_comm]
  | some previous => simp

/-- A name that is taken stays taken. -/
theorem contains_of_define {reg last : Registry} {t : Template} (h : reg.define t = .ok last)
    {name : Text} (htaken : reg.contains name = true) : last.contains name = true := by
  obtain ⟨-, rfl⟩ := define_eq_ok_iff.mp h
  rw [contains, get?, List.find?_append, Option.isSome_or]
  rw [contains, get?] at htaken
  rw [htaken]
  rfl

/-- A name that is defined is taken. -/
theorem contains_define {reg last : Registry} {t : Template} (h : reg.define t = .ok last) :
    last.contains t.name = true := by
  obtain ⟨-, rfl⟩ := define_eq_ok_iff.mp h
  rw [contains, get?, List.find?_append, Option.isSome_or]
  simp

end Registry

/-- A template keeps the definition that it was read off. -/
theorem Template.source_of_ofDefinition {e : Expanded} {t : Template}
    (h : ofDefinition e = .ok t) : t.source = e := by
  rw [ofDefinition] at h
  simp only at h
  split at h
  · cases h
  · split at h
    · cases h
    · obtain rfl := Except.ok.inj h
      rfl

/-- No name is registered twice, and every template was read off a definition. -/
structure Registry.Sound (reg : Registry) : Prop where
  distinct : (reg.templates.map (·.name)).Nodup
  read : ∀ t ∈ reg.templates, ∃ decl, Template.ofDefinition decl = .ok t

theorem Registry.Sound.define {reg last : Registry} {t : Template} {decl : Expanded}
    (h : reg.Sound) (hread : Template.ofDefinition decl = .ok t)
    (hnew : reg.define t = .ok last) : last.Sound := by
  obtain ⟨hfree, rfl⟩ := Registry.define_eq_ok_iff.mp hnew
  constructor
  · have hname : t.name ∉ reg.templates.map (·.name) := by
      intro hmem
      obtain ⟨u, hu, hsame⟩ := List.mem_map.mp hmem
      have hnone := List.find?_eq_none.mp hfree u hu
      exact hnone (by simpa using hsame)
    rw [List.map_append, List.map_singleton]
    exact List.nodup_append.mpr ⟨h.distinct, by simp, by
      rintro a ha b hb rfl
      exact hname (List.mem_singleton.mp hb ▸ ha)⟩
  · intro u hu
    rcases List.mem_append.mp hu with hu | hu
    · exact h.read u hu
    · rw [List.mem_singleton.mp hu]
      exact ⟨decl, hread⟩

/-! ## Evaluations that meet no error -/

/-- Evaluating the expressions of a file without an error takes the first registry to the second;
    `opened` names the open files. -/
inductive Registers (fs : FileSystem) (o : Options) :
    List Text → Text → List Expression → Registry → Registry → Prop where
  /-- At the end of the file nothing happens. -/
  | done {opened : List Text} {file : Text} {reg : Registry} :
      Registers fs o opened file [] reg reg
  /-- A definition is registered. -/
  | define {opened : List Text} {file : Text} {raw : Expression} {raws : List Expression}
      {t : Template} {reg mid last : Registry} (hname : raw.name = defineWord)
      (hread : Template.ofDefinition (.ofExpression raw (o.displayPath file)) = .ok t)
      (hnew : reg.define t = .ok mid) (hrest : Registers fs o opened file raws mid last) :
      Registers fs o opened file (raw :: raws) reg last
  /-- A splice is the evaluation of a file that is not open. -/
  | splice {opened : List Text} {file target : Text} {raw : Expression} {raws : List Expression}
      {stream : Stream} {reg mid last : Registry} (hname : raw.name = includeWord)
      (htarget : includeTarget o raw.body = .ok target)
      (hclosed : opened.contains target = false) (haccess : fs.access target = .ok stream)
      (hwell : (readAll stream).2 = none)
      (hinner : Registers fs o (target :: opened) target (readAll stream).1 reg mid)
      (hrest : Registers fs o opened file raws mid last) :
      Registers fs o opened file (raw :: raws) reg last
  /-- A command registers nothing. -/
  | command {opened : List Text} {file : Text} {raw : Expression} {raws : List Expression}
      {reg last : Registry} (hdefine : raw.name ≠ defineWord) (hinclude : raw.name ≠ includeWord)
      (hrest : Registers fs o opened file raws reg last) :
      Registers fs o opened file (raw :: raws) reg last

/-- Two evaluations one after the other meet no error if neither does. -/
theorem Evaluation.error_andThen {ev : Evaluation} {next : Registry → Evaluation}
    (h : (ev.andThen next).error = none) :
    ev.error = none ∧ (next ev.templates).error = none ∧
      (ev.andThen next).templates = (next ev.templates).templates := by
  rcases ev with ⟨results, _ | error, reg⟩
  · exact ⟨rfl, h, rfl⟩
  · cases h

/-- The error of two evaluations is that of the first, or that of the second behind a first one
    without an error. -/
theorem Evaluation.error_andThen_some {ev : Evaluation} {next : Registry → Evaluation}
    {error : ExpansionError} (h : (ev.andThen next).error = some error) :
    ev.error = some error ∨ (ev.error = none ∧ (next ev.templates).error = some error) := by
  rcases ev with ⟨results, _ | error', reg⟩
  · exact .inr ⟨rfl, h⟩
  · exact .inl h

/-- What an expression of a file does if it meets no error. -/
theorem evalExpression_error_eq_none {fs : FileSystem} {o : Options} {opened : List Text}
    {e : Expanded} {reg : Registry} (h : (evalExpression fs o opened e reg).error = none) :
    (e.name = defineWord ∧ ∃ t, Template.ofDefinition e = .ok t ∧
        reg.define t = .ok (evalExpression fs o opened e reg).templates) ∨
      (e.name = includeWord ∧ ∃ target stream, includeTarget o e.body = .ok target ∧
        opened.contains target = false ∧ fs.access target = .ok stream ∧
        evalExpression fs o opened e reg = evalExpressions fs o (target :: opened) target
          (readAll stream).2 (readAll stream).1 reg) ∨
      (e.name ≠ defineWord ∧ e.name ≠ includeWord ∧
        (evalExpression fs o opened e reg).templates = reg) := by
  by_cases hdefine : e.name = defineWord
  · refine .inl ⟨hdefine, ?_⟩
    rw [evalExpression, if_pos hdefine] at h ⊢
    cases hread : Template.ofDefinition e with
    | error cause => rw [hread] at h; cases h
    | ok t =>
        refine ⟨t, rfl, ?_⟩
        rw [hread] at h
        cases hnew : reg.define t with
        | error cause => simp only [bind, Except.bind, hnew] at h; cases h
        | ok last => simp only [bind, Except.bind, hnew]; rfl
  · by_cases hinclude : e.name = includeWord
    · refine .inr (.inl ⟨hinclude, ?_⟩)
      cases htarget : includeTarget o e.body with
      | error cause =>
          rw [evalExpression_unnamed hinclude htarget] at h
          cases h
      | ok target =>
          by_cases hopen : opened.contains target = true
          · rw [evalExpression_reopened hinclude htarget hopen] at h
            cases h
          · have hclosed : opened.contains target = false := by simpa using hopen
            cases haccess : fs.access target with
            | error error =>
                rw [evalExpression_unopened hinclude htarget hclosed haccess] at h
                cases h
            | ok stream =>
                exact ⟨target, stream, rfl, hclosed, haccess,
                  evalExpression_opened hinclude htarget hclosed haccess⟩
    · refine .inr (.inr ⟨hdefine, hinclude, ?_⟩)
      rw [evalExpression_command hdefine hinclude]
      cases evalCommand reg [] e with
      | error error => rfl
      | ok results => rfl

/-- An evaluation that meets no error registers what its expressions register, and the file was
    read to its end. -/
theorem registers_of_evalExpressions {fs : FileSystem} {o : Options} {opened : List Text}
    {file : Text} {malformed : Option SyntaxError} {raws : List Expression} {reg : Registry}
    (h : (evalExpressions fs o opened file malformed raws reg).error = none) :
    malformed = none ∧ Registers fs o opened file raws reg
      (evalExpressions fs o opened file malformed raws reg).templates := by
  match raws, malformed with
  | [], none =>
      rw [evalExpressions]
      exact ⟨rfl, .done⟩
  | [], some error =>
      rw [evalExpressions] at h
      cases h
  | raw :: raws, malformed =>
      rw [evalExpressions] at h ⊢
      obtain ⟨hfirst, hrest, htemplates⟩ := Evaluation.error_andThen h
      obtain ⟨hwell, hmore⟩ := registers_of_evalExpressions hrest
      rw [htemplates]
      refine ⟨hwell, ?_⟩
      rcases evalExpression_error_eq_none hfirst with ⟨hname, t, hread, hnew⟩ |
        ⟨hname, target, stream, htarget, hclosed, haccess, heval⟩ | ⟨hdefine, hinclude, hsame⟩
      · exact .define hname hread hnew hmore
      · rw [heval] at hfirst
        obtain ⟨hend, hinner⟩ := registers_of_evalExpressions hfirst
        rw [← heval] at hinner
        exact .splice hname htarget hclosed haccess hend hinner hmore
      · rw [hsame] at hmore ⊢
        exact .command hdefine hinclude hmore
termination_by (closedNames fs opened, raws.length)
decreasing_by
  · exact .right _ (Nat.lt_succ_self _)
  · exact .left _ _ (closedNames_cons_lt (FileSystem.mem_names_of_access haccess) hclosed)

theorem Registers.sound {fs : FileSystem} {o : Options} {opened : List Text} {file : Text}
    {raws : List Expression} {reg last : Registry}
    (h : Registers fs o opened file raws reg last) (hreg : reg.Sound) : last.Sound := by
  induction h with
  | done => exact hreg
  | define hname hread hnew hrest ih => exact ih (hreg.define hread hnew)
  | splice hname htarget hclosed haccess hwell hinner hrest ihinner ihrest =>
      exact ihrest (ihinner hreg)
  | command hdefine hinclude hrest ih => exact ih hreg

/-! ## Definitions that are taken -/

/-- Every definition that the expressions of a file lead to has a name that is taken. -/
def Covered (fs : FileSystem) (o : Options) (reg : Registry) (file : Text)
    (es : List Expression) : Prop :=
  ∀ e t, Reaches fs o file es e → e.name = defineWord → Template.ofDefinition e = .ok t →
    reg.contains t.name = true

namespace Registers

variable {fs : FileSystem} {o : Options} {opened : List Text} {file : Text}
  {raws : List Expression} {reg last : Registry}

/-- A name that is taken stays taken. -/
theorem contains (h : Registers fs o opened file raws reg last) {name : Text}
    (htaken : reg.contains name = true) : last.contains name = true := by
  induction h with
  | done => exact htaken
  | define hname hread hnew hrest ih => exact ih (Registry.contains_of_define hnew htaken)
  | splice hname htarget hclosed haccess hwell hinner hrest ihinner ihrest =>
      exact ihrest (ihinner htaken)
  | command hdefine hinclude hrest ih => exact ih htaken

/-- After an evaluation every definition that was led to is taken. -/
theorem covered (h : Registers fs o opened file raws reg last) : Covered fs o last file raws := by
  induction h with
  | done =>
      intro e t hreach
      exact absurd hreach not_reaches_nil
  | define hname hread hnew hrest ih =>
      intro e t hreach hdefine ht
      rcases reaches_cons.mp hreach with rfl | ⟨target, stream, hinclude, -⟩ | hlater
      · obtain rfl := Except.ok.inj (hread.symm.trans ht)
        exact hrest.contains (Registry.contains_define hnew)
      · exact absurd (hname.symm.trans hinclude) defineWord_ne_includeWord
      · exact ih e t hlater hdefine ht
  | splice hname htarget hclosed haccess hwell hinner hrest ihinner ihrest =>
      intro e t hreach hdefine ht
      rcases reaches_cons.mp hreach with
        rfl | ⟨target, stream, -, htarget', haccess', hled⟩ | hlater
      · exact absurd (hdefine.symm.trans hname) defineWord_ne_includeWord
      · obtain rfl := Except.ok.inj (htarget.symm.trans htarget')
        obtain rfl := Except.ok.inj (haccess.symm.trans haccess')
        exact hrest.contains (ihinner e t hled hdefine ht)
      · exact ihrest e t hlater hdefine ht
  | command hplain hinclude hrest ih =>
      intro e t hreach hdefine ht
      rcases reaches_cons.mp hreach with rfl | ⟨target, stream, hsplice, -⟩ | hlater
      · exact absurd hdefine hplain
      · exact absurd hsplice hinclude
      · exact ih e t hlater hdefine ht

/-- If every definition that is led to is taken, an evaluation that meets no error registers
    nothing. -/
theorem eq_of_covered (h : Registers fs o opened file raws reg last)
    (hcovered : Covered fs o reg file raws) : last = reg := by
  induction h with
  | done => rfl
  | define hname hread hnew hrest ih =>
      -- the first definition would be a second one of its name
      have htaken := hcovered _ _ (.here List.mem_cons_self) hname hread
      rw [Registry.contains, (Registry.define_eq_ok_iff.mp hnew).1] at htaken
      cases htaken
  | splice hname htarget hclosed haccess hwell hinner hrest ihinner ihrest =>
      obtain rfl := ihinner fun e t hled =>
        hcovered e t (.through List.mem_cons_self hname htarget haccess hled)
      exact ihrest fun e t hlater => hcovered e t (reaches_cons.mpr (.inr (.inr hlater)))
  | command hdefine hinclude hrest ih =>
      exact ih fun e t hlater => hcovered e t (reaches_cons.mpr (.inr (.inr hlater)))

end Registers

end LineScript
