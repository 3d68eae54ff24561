import LineScript.Proofs.Agreement

/-!
# The order in which a survey reads

A survey reads a document from the top. Where it comes to an `include` whose file it can read and
has not reached before, it goes through that file first; any other `include` it passes over. This
file describes that order without a survey, as a relation on texts, in which nothing bounds how deep
files stand inside each other. There is such an order for every document, whether or not its files
include each other or themselves, because every file that is entered leaves fewer files to enter. A
survey keeps the first definition of each name in it.

* `Unrolls`: the expressions of a file, with every file in place of the first `include` that comes
  to it.
* `exists_unrolls` and `Unrolls.unique`: there is one such order.
* `Unrolls.surveyAll_eq`: a survey keeps the definitions of that order one after another.
* `Document.definition?_unrolled`: the definitions of a document.
-/

namespace LineScript

/-- What reading the expressions `es` of `file` from the top comes to, if the files `before` have
    been reached: `scans` are the files that are read in the course of it, with their texts, and
    `order` are the expressions that are met, with their files. -/
inductive Unrolls (fs : FileSystem) (o : Options) :
    List Text → Text → List Expression → List (Text × Text) → List (Text × Expression) → Prop where
  | done {before : List Text} {file : Text} : Unrolls fs o before file [] [] []
  /-- A file that is reached for the first time stands in place of the `include`. -/
  | splice {before : List Text} {file target text : Text} {e : Expression} {es : List Expression}
      {inner scans : List (Text × Text)} {order more : List (Text × Expression)}
      (hname : e.name = includeWord) (htarget : surveyTarget o e.body = some target)
      (hread : fs.readText target = .ok text) (hnew : target ∉ before)
      (hinner : Unrolls fs o (before ++ [target]) target (readAll (.ofText text)).1 inner order)
      (hrest : Unrolls fs o (before ++ target :: inner.map (·.1)) file es scans more) :
      Unrolls fs o before file (e :: es) ((target, text) :: (inner ++ scans)) (order ++ more)
  /-- An `include` stands for nothing if it names no file, one that cannot be read, or one that has
      been reached. -/
  | pass {before : List Text} {file : Text} {e : Expression} {es : List Expression}
      {scans : List (Text × Text)} {order : List (Text × Expression)}
      (hname : e.name = includeWord)
      (hold : ∀ target text, surveyTarget o e.body = some target → fs.readText target = .ok text →
        target ∈ before)
      (hrest : Unrolls fs o before file es scans order) :
      Unrolls fs o before file (e :: es) scans order
  | meet {before : List Text} {file : Text} {e : Expression} {es : List Expression}
      {scans : List (Text × Text)} {order : List (Text × Expression)}
      (hname : e.name ≠ includeWord) (hrest : Unrolls fs o before file es scans order) :
      Unrolls fs o before file (e :: es) scans ((file, e) :: order)

/-- The definition that an expression of a file is, if it is one and has a name. -/
def definitionAt (place : Text × Expression) : Option Definition :=
  if place.2.name = defineWord then Definition.ofExpression? place.1 place.2 else none

section Order

variable {fs : FileSystem} {o : Options} {before : List Text} {file : Text} {es : List Expression}
  {scans : List (Text × Text)} {order : List (Text × Expression)}

/-- A file that can be read and is reached for the first time leaves fewer names. -/
theorem closedNames_lt_of_readText {target text : Text} {more : List Text}
    (hread : fs.readText target = .ok text) (hnew : target ∉ before) (hsub : before ⊆ more)
    (htarget : target ∈ more) : closedNames fs more < closedNames fs before := by
  obtain ⟨stream, haccess⟩ : ∃ stream, fs.access target = .ok stream := by
    cases haccess : fs.access target with
    | ok stream => exact ⟨stream, rfl⟩
    | error error =>
        rw [FileSystem.readText, haccess] at hread
        cases hread
  calc closedNames fs more
      ≤ closedNames fs (target :: before) :=
        closedNames_le_of_subset fs (List.cons_subset.mpr ⟨htarget, hsub⟩)
    _ < closedNames fs before :=
        closedNames_cons_lt (FileSystem.mem_names_of_access haccess) (by simpa using hnew)

/-- Reading comes to an end, however the files include each other. -/
theorem exists_unrolls (fs : FileSystem) (o : Options) (before : List Text) (file : Text)
    (es : List Expression) : ∃ scans order, Unrolls fs o before file es scans order := by
  match es with
  | [] => exact ⟨[], [], .done⟩
  | e :: es =>
      by_cases hname : e.name = includeWord
      · by_cases hnew : ∃ target text, surveyTarget o e.body = some target ∧
          fs.readText target = .ok text ∧ target ∉ before
        · obtain ⟨target, text, htarget, hread, hnew⟩ := hnew
          obtain ⟨inner, order, hinner⟩ :=
            exists_unrolls fs o (before ++ [target]) target (readAll (.ofText text)).1
          obtain ⟨scans, more, hrest⟩ :=
            exists_unrolls fs o (before ++ target :: inner.map (·.1)) file es
          exact ⟨_, _, .splice hname htarget hread hnew hinner hrest⟩
        · obtain ⟨scans, order, hrest⟩ := exists_unrolls fs o before file es
          refine ⟨scans, order, .pass hname ?_ hrest⟩
          intro target text htarget hread
          refine Classical.byContradiction fun hunseen => ?_
          exact hnew ⟨target, text, htarget, hread, hunseen⟩
      · obtain ⟨scans, order, hrest⟩ := exists_unrolls fs o before file es
        exact ⟨scans, (file, e) :: order, .meet hname hrest⟩
termination_by (closedNames fs before, es.length)
decreasing_by
  · exact .left _ _ (closedNames_lt_of_readText hread hnew (by simp) (by simp))
  · exact .left _ _ (closedNames_lt_of_readText hread hnew (by simp) (by simp))
  · exact .right _ (Nat.lt_succ_self _)
  · exact .right _ (Nat.lt_succ_self _)

/-- It comes to one end only. -/
theorem Unrolls.unique {scans' : List (Text × Text)} {order' : List (Text × Expression)}
    (h : Unrolls fs o before file es scans order) (h' : Unrolls fs o before file es scans' order') :
    scans' = scans ∧ order' = order := by
  induction h generalizing scans' order' with
  | done =>
      cases h'
      exact ⟨rfl, rfl⟩
  | splice hname htarget hread hnew hinner hrest ihinner ihrest =>
      cases h' with
      | splice _ htarget' hread' _ hinner' hrest' =>
          obtain rfl := Option.some.inj (htarget.symm.trans htarget')
          obtain rfl := Except.ok.inj (hread.symm.trans hread')
          obtain ⟨rfl, rfl⟩ := ihinner hinner'
          obtain ⟨rfl, rfl⟩ := ihrest hrest'
          exact ⟨rfl, rfl⟩
      | pass _ hold _ => exact absurd (hold _ _ htarget hread) hnew
      | meet hname' _ => exact absurd hname hname'
  | pass hname hold hrest ih =>
      cases h' with
      | splice _ htarget hread hnew _ _ => exact absurd (hold _ _ htarget hread) hnew
      | pass _ _ hrest' => exact ih hrest'
      | meet hname' _ => exact absurd hname hname'
  | meet hname hrest ih =>
      cases h' with
      | splice hname' _ _ _ _ _ => exact absurd hname' hname
      | pass hname' _ _ => exact absurd hname' hname
      | meet _ hrest' =>
          obtain ⟨rfl, rfl⟩ := ih hrest'
          exact ⟨rfl, rfl⟩

/-- Nothing matters but what can be read, and that only of files that have not been reached. -/
theorem Unrolls.transfer {fs' : FileSystem} (h : Unrolls fs o before file es scans order)
    (hsame : ∀ f, f ∉ before → ∀ text, fs'.readText f = .ok text ↔ fs.readText f = .ok text) :
    Unrolls fs' o before file es scans order := by
  induction h with
  | done => exact .done
  | splice hname htarget hread hnew hinner hrest ihinner ihrest =>
      refine .splice hname htarget ((hsame _ hnew _).mpr hread) hnew (ihinner ?_) (ihrest ?_)
      · exact fun f hf => hsame f fun hold => hf (List.mem_append_left _ hold)
      · exact fun f hf => hsame f fun hold => hf (List.mem_append_left _ hold)
  | pass hname hold hrest ih =>
      refine .pass hname ?_ (ih hsame)
      intro target text htarget hread
      refine Classical.byContradiction fun hunseen => ?_
      exact hunseen (hold target text htarget ((hsame target hunseen text).mp hread))
  | meet hname hrest ih => exact .meet hname (ih hsame)

/-- What is read is what the files hold. -/
theorem Unrolls.readText (h : Unrolls fs o before file es scans order) :
    ∀ f ∈ scans, fs.readText f.1 = .ok f.2 := by
  induction h with
  | done =>
      intro f hf
      cases hf
  | splice hname htarget hread hnew hinner hrest ihinner ihrest =>
      intro f hf
      rcases List.mem_cons.mp hf with rfl | hf
      · exact hread
      · rcases List.mem_append.mp hf with hf | hf
        · exact ihinner f hf
        · exact ihrest f hf
  | pass hname hold hrest ih => exact ih
  | meet hname hrest ih => exact ih

/-- No file is read twice, and none that has been reached. -/
theorem Unrolls.nodup (h : Unrolls fs o before file es scans order) (hbefore : before.Nodup) :
    (before ++ scans.map (·.1)).Nodup := by
  induction h with
  | done => simpa using hbefore
  | splice hname htarget hread hnew hinner hrest ihinner ihrest =>
      have hreached := ihinner (List.nodup_append.mpr ⟨hbefore, by simp, by grind⟩)
      rw [List.append_assoc, List.singleton_append] at hreached
      have hall := ihrest hreached
      rw [List.append_assoc, List.cons_append, ← List.map_append] at hall
      exact hall
  | pass hname hold hrest ih => exact ih hbefore
  | meet hname hrest ih => exact ih hbefore

end Order

/-! ## The survey of an order -/

namespace Survey

/-- Of definitions that are kept one after another the first of each name counts. -/
theorem definition?_foldl_keep (ds : List Definition) (s : Survey) (n : Text) :
    (ds.foldl keep s).definition? n = (s.definition? n).or (ds.find? (·.name = n)) := by
  induction ds generalizing s with
  | nil => simp
  | cons d ds ih =>
      rw [List.foldl_cons, ih, definition?_keep, Option.or_assoc, List.find?_cons]
      by_cases hname : d.name = n
      · simp [hname]
      · simp [hname]

/-- No name has a second definition. -/
theorem nodup_foldl_keep (ds : List Definition) {s : Survey}
    (h : (s.definitions.map (·.name)).Nodup) :
    ((ds.foldl keep s).definitions.map (·.name)).Nodup := by
  induction ds generalizing s with
  | nil => exact h
  | cons d ds ih =>
      refine ih ?_
      rw [keep]
      split
      · exact h
      · rename_i hfree
        have hnone : s.definition? d.name = none := by simpa using hfree
        have hother : ∀ d' ∈ s.definitions, d'.name ≠ d.name := by
          intro d' hd'
          simpa using List.find?_eq_none.mp hnone d' hd'
        show ((s.definitions ++ [d]).map (·.name)).Nodup
        rw [List.map_append, List.nodup_append]
        refine ⟨h, by simp, ?_⟩
        intro n hn n' hn'
        obtain ⟨d', hd', rfl⟩ := List.mem_map.mp hn
        rw [List.map_singleton, List.mem_singleton] at hn'
        rw [hn']
        exact hother d' hd'

theorem seen_foldl_keep (ds : List Definition) (s : Survey) : (ds.foldl keep s).seen = s.seen := by
  induction ds generalizing s with
  | nil => rfl
  | cons d ds ih =>
      rw [List.foldl_cons, ih, keep]
      split
      · rfl
      · rfl

/-- What is found does not depend on what has been seen. -/
theorem definitions_foldl_keep {s s' : Survey} (h : s.definitions = s'.definitions)
    (ds : List Definition) :
    (ds.foldl keep s).definitions = (ds.foldl keep s').definitions := by
  induction ds generalizing s s' with
  | nil => exact h
  | cons d ds ih =>
      refine ih ?_
      rw [keep, keep, definition?, definition?, h]
      split
      · exact h
      · rfl

end Survey

section Surveys

variable {fs : FileSystem} {o : Options} {before : List Text} {file : Text} {es : List Expression}
  {scans : List (Text × Text)} {order : List (Text × Expression)} {s : Survey} {room : Nat}

/-- An `include` of a file that can be read takes the survey to the file. -/
theorem surveyExpression_include {e : Expression} {target text : Text}
    (hname : e.name = includeWord) (htarget : surveyTarget o e.body = some target)
    (hread : fs.readText target = .ok text) :
    surveyExpression fs o (visitFile fs o room) file s e = visitFile fs o room target text s := by
  rw [surveyExpression, if_neg (hname ▸ defineWord_ne_includeWord.symm), if_pos hname, htarget]
  simp only [hread]

/-- It passes over an `include` of any other file, and over one that it has seen. -/
theorem surveyExpression_pass {e : Expression} (hname : e.name = includeWord)
    (hold : ∀ target text, surveyTarget o e.body = some target → fs.readText target = .ok text →
      target ∈ s.seen) : surveyExpression fs o (visitFile fs o room) file s e = s := by
  cases htarget : surveyTarget o e.body with
  | none =>
      rw [surveyExpression, if_neg (hname ▸ defineWord_ne_includeWord.symm), if_pos hname, htarget]
  | some target =>
      cases hread : fs.readText target with
      | ok text =>
          rw [surveyExpression_include hname htarget hread]
          exact visitFile_of_seen _ _ _ _ _ (List.contains_iff_mem.mpr (hold _ _ htarget hread))
      | error error =>
          rw [surveyExpression, if_neg (hname ▸ defineWord_ne_includeWord.symm), if_pos hname,
            htarget]
          simp only [hread]

/-- Of any other expression it keeps the definition. -/
theorem surveyExpression_meet {e : Expression} (hname : e.name ≠ includeWord) :
    surveyExpression fs o (visitFile fs o room) file s e =
      (definitionAt (file, e)).toList.foldl Survey.keep s := by
  rw [surveyExpression, definitionAt]
  by_cases hdefine : e.name = defineWord
  · rw [if_pos hdefine, if_pos hdefine]
    cases Definition.ofExpression? file e with
    | none => rfl
    | some d => rfl
  · rw [if_neg hdefine, if_neg hdefine, if_neg hname]
    rfl

/-- With room for the files that are left, a survey keeps the definitions of the order one after
    another, and sees the files that are read. -/
theorem Unrolls.surveyAll_eq (h : Unrolls fs o before file es scans order)
    (hroom : closedNames fs before ≤ room) (hseen : s.seen = before.reverse) :
    surveyAll fs o room file es s =
      { seen := (before ++ scans.map (·.1)).reverse
        definitions := ((order.filterMap definitionAt).foldl Survey.keep s).definitions } := by
  induction h generalizing s room with
  | done =>
      rw [List.map_nil, List.append_nil, ← hseen]
      rfl
  | @splice before file target text e es inner scans order more hname htarget hread hnew hinner
      hrest ihinner ihrest =>
      have hlt : closedNames fs (before ++ [target]) < closedNames fs before :=
        closedNames_lt_of_readText hread hnew (by simp) (by simp)
      have hle : closedNames fs (before ++ target :: inner.map (·.1)) < closedNames fs before :=
        closedNames_lt_of_readText hread hnew (by simp) (by simp)
      have hunseen : s.seen.contains target = false := by simpa [hseen] using hnew
      obtain ⟨room, rfl⟩ := Nat.exists_eq_succ_of_ne_zero (show room ≠ 0 by omega)
      rw [surveyAll, List.foldl_cons, surveyExpression_include hname htarget hread,
        visitFile_of_unseen _ _ _ _ _ hunseen, ihinner (by omega) (by simp [hseen])]
      refine (ihrest (by omega) (by simp)).trans ?_
      rw [Survey.mk.injEq, List.filterMap_append, List.foldl_append]
      refine ⟨by simp, Survey.definitions_foldl_keep ?_ _⟩
      exact Survey.definitions_foldl_keep (by rfl) _
  | pass hname hold hrest ih =>
      rw [surveyAll, List.foldl_cons, surveyExpression_pass hname]
      · exact ih hroom hseen
      · intro target text htarget hread
        rw [hseen, List.mem_reverse]
        exact hold target text htarget hread
  | @meet before file e es scans order hname hrest ih =>
      have hfirst : ((file, e) :: order).filterMap definitionAt =
          (definitionAt (file, e)).toList ++ order.filterMap definitionAt := by
        rw [List.filterMap_cons]
        cases definitionAt (file, e) with
        | none => rfl
        | some d => rfl
      rw [surveyAll, List.foldl_cons, surveyExpression_meet hname, hfirst, List.foldl_append]
      exact ih hroom ((Survey.seen_foldl_keep _ s).trans hseen)

/-- The survey of a document, given enough room, is that of its order. -/
theorem Unrolls.visitFile_eq {name text : Text}
    (h : Unrolls fs o [name] name (readAll (.ofText text)).1 scans order)
    (hroom : fs.names.length < room) :
    visitFile fs o room name text {} =
      { seen := (name :: scans.map (·.1)).reverse
        definitions := ((order.filterMap definitionAt).foldl Survey.keep {}).definitions } := by
  have hclosed : closedNames fs [name] ≤ fs.names.length := List.countP_le_length
  obtain ⟨room, rfl⟩ := Nat.exists_eq_succ_of_ne_zero (show room ≠ 0 by omega)
  rw [visitFile_of_unseen _ _ _ _ _ rfl, h.surveyAll_eq (by omega) rfl]
  rw [Survey.mk.injEq]
  exact ⟨rfl, Survey.definitions_foldl_keep (by rfl) _⟩

end Surveys

namespace Document

/-- The definitions of a document, for every set of files, whether or not they include each other or
    themselves. Reading the document from the top, with every file in place of the first `include`
    that comes to it, comes to an end, in one way. No file is read twice, the document itself is not
    read again, and what is read is what the files hold, up to their first malformed lines; the
    survey sees these files, and would see no others with more room. It makes no difference whether
    a file is missing or cannot be read, nor what there is under the document's own name. Under each
    name the document has the first definition in this order, and no second. -/
theorem definition?_unrolled (fs : FileSystem) (o : Options) (name text : Text) :
    ∃ scans order, Unrolls fs o [name] name (readAll (.ofText text)).1 scans order ∧
      (∀ scans' order', Unrolls fs o [name] name (readAll (.ofText text)).1 scans' order' →
        scans' = scans ∧ order' = order) ∧
      (name :: scans.map (·.1)).Nodup ∧
      (∀ f ∈ scans, fs.readText f.1 = .ok f.2) ∧
      (survey fs o name text).seen.reverse = name :: scans.map (·.1) ∧
      (∀ room, fs.names.length < room →
        visitFile fs o room name text {} = survey fs o name text) ∧
      (∀ fs' : FileSystem, (∀ f, f ≠ name → ∀ contents,
          fs'.readText f = .ok contents ↔ fs.readText f = .ok contents) →
        Document.ofText fs' o name text = Document.ofText fs o name text) ∧
      (∀ n, (Document.ofText fs o name text).definition? n =
        (order.filterMap definitionAt).find? (·.name = n)) ∧
      ((Document.ofText fs o name text).found.map (·.name)).Nodup := by
  obtain ⟨scans, order, h⟩ := exists_unrolls fs o [name] name (readAll (.ofText text)).1
  have hsurvey : survey fs o name text = _ := h.visitFile_eq (Nat.lt_succ_self _)
  have hfound : (Document.ofText fs o name text).found =
      ((order.filterMap definitionAt).foldl Survey.keep {}).definitions := by
    rw [Document.ofText, hsurvey]
  refine ⟨scans, order, h, fun _ _ => h.unique, h.nodup (by simp), h.readText,
    ?_, ?_, ?_, ?_, ?_⟩
  · rw [hsurvey, List.reverse_reverse]
  · intro room hroom
    rw [hsurvey, h.visitFile_eq hroom]
  · intro fs' hsame
    have h' : Unrolls fs' o [name] name (readAll (.ofText text)).1 scans order :=
      h.transfer fun f hf => hsame f (by simpa using hf)
    have hsurvey' : survey fs' o name text = survey fs o name text :=
      (h'.visitFile_eq (Nat.lt_succ_self _)).trans hsurvey.symm
    rw [Document.ofText, Document.ofText, hsurvey']
  · intro n
    rw [definition?, hfound]
    exact (Survey.definition?_foldl_keep _ {} n).trans Option.none_or
  · rw [hfound]
    exact Survey.nodup_foldl_keep _ List.nodup_nil

/-- The document includes a file that includes itself and the document. Of two definitions of `g`
    the one in the file is met first. What is stored under the document's name makes no difference,
    nor does a file that cannot be read. -/
theorem definition?_unrolled_cyclic :
    let name := "m.linebased".toList
    let text := "include a\ninclude b\ndefine g\n\tB\n".toList
    let a : Text × Except AccessError Stream :=
      ("a.linebased".toList, .ok (.ofText "include a\ninclude m\ndefine g\n\tA\n".toList))
    let fs : FileSystem := { files := [a] }
    let fs' : FileSystem :=
      { files := [a, (name, .ok (.ofText "define g\n\tC\n".toList)),
          ("b.linebased".toList, .ok [.undecodable false])] }
    Document.ofText fs' {} name text = Document.ofText fs {} name text ∧
      ((Document.ofText fs {} name text).definition? ['g']).map (·.body) =
        some "A\n".toList := by
  intro name text a fs fs'
  obtain ⟨scans, order, -, -, -, -, -, -, hsame, -, -⟩ := definition?_unrolled fs {} name text
  refine ⟨hsame fs' ?_, by decide +kernel⟩
  intro f hf contents
  by_cases ha : a.1 = f
  · have hopen : fs'.access f = fs.access f := by
      simp [fs, fs', FileSystem.access, ha]
    rw [FileSystem.readText, FileSystem.readText, hopen]
  · have hmissing : fs.readText f = .error .missing := by
      simp [fs, FileSystem.readText, FileSystem.access, ha, bind, Except.bind]
    have hunread : ∃ error, fs'.readText f = .error error := by
      by_cases hb : "b.linebased".toList = f
      · have hopen : fs'.access f = .ok [.undecodable false] := by
          simp [fs', FileSystem.access, ha, hf.symm, hb]
        exact ⟨.notText, by rw [FileSystem.readText, hopen]; rfl⟩
      · have hopen : fs'.access f = .error .missing := by
          simp only [fs', FileSystem.access, List.find?_cons, List.find?_nil, ha, hf.symm, hb,
            decide_false]
        exact ⟨.missing, by rw [FileSystem.readText, hopen]; rfl⟩
    obtain ⟨error, hunread⟩ := hunread
    rw [hmissing, hunread]
    exact iff_of_false (by simp) (by simp)

end Document

end LineScript
