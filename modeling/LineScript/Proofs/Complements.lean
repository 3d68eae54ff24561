import LineScript.Check.Json
import LineScript.Proofs.Fields
import LineScript.Proofs.Lines

/-!
# Checks and their negations

A check is valid or not by its operator and the expected value, and the value that is checked has
no say in it. That is why a check of a document may be tried on any value before the document is
read. The operators come in pairs, each the negation of the other: they refuse the same expected
values, and of the others one passes exactly the values that the other fails. All of this holds
for every language of patterns and every library of documents.

* `Test.Kind`: the pairs of operators.
* `Objection`, `prepare_eq_error_iff`: what is wrong with an operator and an expected value.
* `Test.negate`, `prepare_negation`: a negated operator makes the negated test.
* `threeArguments_exchange`: the counterpart of a check of a document.
* `checks_complementary`: values and documents under both operators of a pair.
-/

namespace LineScript

namespace Text

theorem ofList_eq_iff {t : Text} {s : String} : String.ofList t = s ↔ t = s.toList := by
  constructor
  · rintro rfl
    exact String.toList_ofList.symm
  · rintro rfl
    exact String.ofList_toList

/-- A part is found if it stands somewhere in the text. -/
theorem hasPart_iff (part t : Text) : hasPart part t = true ↔ part <:+: t := by
  induction t with
  | nil => simp [hasPart]
  | cons c cs ih => simp [hasPart, List.infix_cons_iff, ih]

end Text

/-! ## Pairs of operators -/

namespace Test

/-- What a value can be tested for: to be a text, to match a pattern, to have a part. -/
inductive Kind where
  | equality
  | pattern
  | part

namespace Kind

/-- The operator that asks for it. -/
def operator : Kind → Text
  | .equality => "==".toList
  | .pattern => "~".toList
  | .part => "contains".toList

/-- The operator that asks for the contrary. -/
def negation : Kind → Text
  | .equality => "!=".toList
  | .pattern => "!~".toList
  | .part => "!contains".toList

/-- The two operators of a kind. -/
def Owns (k : Kind) (op : Text) : Prop := op = k.operator ∨ op = k.negation

instance (k : Kind) (op : Text) : Decidable (k.Owns op) :=
  inferInstanceAs (Decidable (_ ∨ _))

/-- There is something to compare with: a pattern, or any text that is not empty. -/
def Fits (lang : PatternLanguage) (want : Text) : Kind → Prop
  | .equality => want ≠ []
  | .pattern => ∃ p, lang.compile want = .ok p
  | .part => want ≠ []

/-- A value is what is asked for. -/
def Relates (lang : PatternLanguage) (want got : Text) : Kind → Prop
  | .equality => got = want
  | .pattern => ∃ p, lang.compile want = .ok p ∧ lang.isMatch p got = true
  | .part => want <:+: got

end Kind

/-- The test that passes what another one fails. -/
def negate {ρ : Type} : Test ρ → Test ρ
  | .equal want => .differ want
  | .differ want => .equal want
  | .matching want p => .notMatching want p
  | .notMatching want p => .matching want p
  | .containing want => .notContaining want
  | .notContaining want => .containing want

/-- The operators that need a text to compare with. -/
theorem plain?_eq_none_iff {ρ : Type} {op want : Text} :
    (plain? op want : Option (Test ρ)) = none ↔ ¬Kind.equality.Owns op ∧ ¬Kind.part.Owns op := by
  constructor
  · intro hnone
    constructor
    · rintro (rfl | rfl) <;> cases hnone
    · rintro (rfl | rfl) <;> cases hnone
  · rintro ⟨hequality, hpart⟩
    unfold plain?
    split
    case h_1 h => exact absurd (Or.inl (Text.ofList_eq_iff.mp h)) hequality
    case h_2 h => exact absurd (Or.inr (Text.ofList_eq_iff.mp h)) hequality
    case h_3 h => exact absurd (Or.inl (Text.ofList_eq_iff.mp h)) hpart
    case h_4 h => exact absurd (Or.inr (Text.ofList_eq_iff.mp h)) hpart
    case h_5 => rfl

end Test

/-! ## What makes a check invalid -/

/-- What is wrong with an operator and an expected value. No value that is checked, and no name of
    one, occurs here. -/
inductive Objection (lang : PatternLanguage) (op want : Text) : CheckError → Prop where
  | pattern {detail : String} (hop : Test.Kind.pattern.Owns op)
      (hread : lang.compile want = .error detail) : Objection lang op want (.badPattern want detail)
  | empty (hop : ¬Test.Kind.pattern.Owns op) (hwant : want = []) :
      Objection lang op want .emptyExpectation
  | unknown (hop : ∀ k : Test.Kind, ¬k.Owns op) (hwant : want ≠ []) :
      Objection lang op want (.unknownOperator op)

namespace PatternLanguage

variable {lang : PatternLanguage} {op want : Text} {error : CheckError}

/-- An operator for patterns is refused if the expected value is none. -/
theorem prepare_pattern_eq_error_iff (hop : Test.Kind.pattern.Owns op) :
    lang.prepare op want = .error error ↔
      ∃ detail, lang.compile want = .error detail ∧ error = .badPattern want detail := by
  have hread : ∀ f : lang.Compiled → Test lang.Compiled,
      (lang.readPattern want).map f = .error error ↔
        ∃ detail, lang.compile want = .error detail ∧ error = .badPattern want detail := by
    intro f
    unfold readPattern
    cases lang.compile want with
    | ok p => simp [Except.map]
    | error detail => simp [Except.map, eq_comm]
  rcases hop with rfl | rfl
  · exact hread (.matching want)
  · exact hread (.notMatching want)

/-- Any other operator needs a text to compare with, and has to be known. -/
theorem prepare_plain (hop : ¬Test.Kind.pattern.Owns op) :
    lang.prepare op want =
      if want = [] then .error .emptyExpectation
      else (Test.plain? op want).elim (.error (.unknownOperator op)) .ok := by
  have hmatch : op ≠ ['~'] := fun h => hop (Or.inl h)
  have hnoMatch : op ≠ ['!', '~'] := fun h => hop (Or.inr h)
  rw [prepare, if_neg hmatch, if_neg hnoMatch]
  cases (Test.plain? op want : Option (Test lang.Compiled)) with
  | none => rfl
  | some test => rfl

/-- What is wrong with an operator and an expected value is found before there is a value. -/
theorem prepare_eq_error_iff :
    lang.prepare op want = .error error ↔ Objection lang op want error := by
  constructor
  · intro h
    by_cases hop : Test.Kind.pattern.Owns op
    · obtain ⟨detail, hread, rfl⟩ := (prepare_pattern_eq_error_iff hop).mp h
      exact .pattern hop hread
    · rw [prepare_plain hop] at h
      by_cases hwant : want = []
      · rw [if_pos hwant] at h
        obtain rfl := Except.error.inj h
        exact .empty hop hwant
      · rw [if_neg hwant] at h
        cases hplain : (Test.plain? op want : Option (Test lang.Compiled)) with
        | some test =>
            rw [hplain] at h
            cases h
        | none =>
            -- an operator of no kind, as all three kinds have been ruled out
            rw [hplain] at h
            obtain rfl := Except.error.inj h
            obtain ⟨hequality, hpart⟩ := Test.plain?_eq_none_iff.mp hplain
            refine .unknown (fun k => ?_) hwant
            cases k with
            | equality => exact hequality
            | pattern => exact hop
            | part => exact hpart
  · intro h
    cases h with
    | pattern hop hread => exact (prepare_pattern_eq_error_iff hop).mpr ⟨_, hread, rfl⟩
    | empty hop hwant => rw [prepare_plain hop, if_pos hwant]
    | unknown hop hwant =>
        have hplain : (Test.plain? op want : Option (Test lang.Compiled)) = none :=
          Test.plain?_eq_none_iff.mpr ⟨hop .equality, hop .part⟩
        rw [prepare_plain (hop .pattern), if_neg hwant, hplain]
        rfl

theorem prepare_plain_negate {op' : Text} {test : Test lang.Compiled}
    (hop : ¬Test.Kind.pattern.Owns op) (hop' : ¬Test.Kind.pattern.Owns op')
    (htest : Test.plain? op want = some test) (hnegate : Test.plain? op' want = some test.negate) :
    lang.prepare op' want = (lang.prepare op want).map Test.negate := by
  rw [prepare_plain hop, prepare_plain hop', htest, hnegate]
  by_cases hwant : want = []
  · rw [if_pos hwant, if_pos hwant]
    rfl
  · rw [if_neg hwant, if_neg hwant]
    rfl

/-- A negated operator makes the negated test, of the same expected values. -/
theorem prepare_negation (k : Test.Kind) (want : Text) :
    lang.prepare k.negation want = (lang.prepare k.operator want).map Test.negate := by
  cases k with
  | equality => exact prepare_plain_negate (by decide) (by decide) rfl rfl
  | pattern =>
      show (lang.readPattern want).map (.notMatching want) =
        ((lang.readPattern want).map (.matching want)).map Test.negate
      cases lang.readPattern want with
      | ok p => rfl
      | error e => rfl
  | part => exact prepare_plain_negate (by decide) (by decide) rfl rfl

/-- Where there is something to compare with, an operator makes a test for what it asks. -/
theorem exists_prepare_operator {k : Test.Kind} (hfits : k.Fits lang want) :
    ∃ test, lang.prepare k.operator want = .ok test ∧
      ∀ got, lang.holds test got = true ↔ k.Relates lang want got := by
  cases k with
  | equality =>
      refine ⟨.equal want, ?_, fun got => decide_eq_true_iff⟩
      rw [prepare_plain (by decide), if_neg hfits]
      rfl
  | pattern =>
      obtain ⟨p, hread⟩ := hfits
      refine ⟨.matching want p, ?_, fun got => ⟨fun h => ⟨p, hread, h⟩, ?_⟩⟩
      · show (lang.readPattern want).map (Test.matching want) = .ok (.matching want p)
        rw [readPattern, hread]
        rfl
      · rintro ⟨p', hread', hmatches⟩
        obtain rfl := Except.ok.inj (hread.symm.trans hread')
        exact hmatches
  | part =>
      refine ⟨.containing want, ?_, fun got => Text.hasPart_iff want got⟩
      rw [prepare_plain (by decide), if_neg hfits]
      rfl

/-- Where there is nothing to compare with, there is an objection. -/
theorem exists_objection {k : Test.Kind} (hfits : ¬k.Fits lang want) :
    ∃ error, Objection lang k.operator want error := by
  cases k with
  | equality => exact ⟨_, .empty (by decide) (Classical.not_not.mp hfits)⟩
  | pattern =>
      cases hread : lang.compile want with
      | ok p => exact absurd ⟨p, hread⟩ hfits
      | error detail => exact ⟨_, .pattern (Or.inl rfl) hread⟩
  | part => exact ⟨_, .empty (by decide) (Classical.not_not.mp hfits)⟩

/-- An objection to an operator is one to its negation. -/
theorem objection_negation_iff {k : Test.Kind} :
    Objection lang k.negation want error ↔ Objection lang k.operator want error := by
  rw [← prepare_eq_error_iff, ← prepare_eq_error_iff, prepare_negation]
  cases lang.prepare k.operator want with
  | ok test => simp [Except.map]
  | error e => simp [Except.map]

end PatternLanguage

/-! ## Outcomes -/

/-- One of two outcomes is a pass, and the other one a failure. -/
def Outcome.Opposed (a b : Outcome) : Prop :=
  (a = .pass ∧ ∃ message, b = .fail message) ∨ ((∃ message, a = .fail message) ∧ b = .pass)

theorem Outcome.Opposed.ne_invalid {a b : Outcome} (h : a.Opposed b) (error : CheckError) :
    a ≠ .invalid error := by
  rintro rfl
  obtain ⟨hpass, -⟩ | ⟨⟨message, hfail⟩, -⟩ := h
  · cases hpass
  · cases hfail

namespace PatternLanguage

section Values

variable {lang : PatternLanguage} {what op got want : Text} {error : CheckError}
  {test : Test lang.Compiled}

theorem holds_negate (test : Test lang.Compiled) (got : Text) :
    lang.holds test.negate got = !lang.holds test got := by
  cases test with
  | equal want => simp [Test.negate, holds]
  | differ want => simp [Test.negate, holds]
  | matching want p => rfl
  | notMatching want p => exact (Bool.not_not _).symm
  | containing want => rfl
  | notContaining want => exact (Bool.not_not _).symm

theorem checkText_eq_run (h : lang.prepare op want = .ok test) :
    lang.checkText what op got want = lang.run test what got := by
  rw [checkText, h]

theorem run_ne_invalid : lang.run test what got ≠ .invalid error := by
  unfold run
  split
  · exact Outcome.noConfusion
  · exact Outcome.noConfusion

/-- A check is invalid if there is an objection to it, whatever the value. -/
theorem checkText_eq_invalid_iff :
    lang.checkText what op got want = .invalid error ↔ Objection lang op want error := by
  rw [← prepare_eq_error_iff]
  cases hprepare : lang.prepare op want with
  | ok test =>
      rw [checkText_eq_run hprepare]
      constructor
      · intro h
        exact absurd h run_ne_invalid
      · intro h
        cases h
  | error e =>
      rw [checkText, hprepare]
      constructor
      · intro h
        rw [Outcome.invalid.inj h]
      · intro h
        rw [Except.error.inj h]

/-- A test and its negation are of two minds about every value. -/
theorem opposed_run (test : Test lang.Compiled) (what got : Text) :
    (lang.run test what got).Opposed (lang.run test.negate what got) := by
  unfold run
  rw [holds_negate]
  cases lang.holds test got with
  | true => exact Or.inl ⟨rfl, _, rfl⟩
  | false => exact Or.inr ⟨⟨_, rfl⟩, rfl⟩

/-- The operators of a pair decide about the values if there is something to compare with. -/
theorem checkText_opposed {k : Test.Kind} (hfits : k.Fits lang want) :
    (lang.checkText what k.operator got want).Opposed (lang.checkText what k.negation got want) ∧
      (lang.checkText what k.operator got want = .pass ↔ k.Relates lang want got) := by
  obtain ⟨test, hprepare, hholds⟩ := exists_prepare_operator hfits
  have hnegate : lang.prepare k.negation want = .ok test.negate := by
    rw [prepare_negation, hprepare]
    rfl
  rw [checkText_eq_run hprepare, checkText_eq_run hnegate, ← hholds]
  refine ⟨opposed_run test what got, ?_⟩
  unfold run
  cases lang.holds test got with
  | true => simp
  | false => simp

end Values

/-! ## Documents -/

section Documents

variable {lang : PatternLanguage} {json : JsonLibrary}
  {check document pointer op want : Text} {error : CheckError}

theorem checkJson_of_objection (hargs : threeArguments check = (pointer, op, want))
    (h : Objection lang op want error) : lang.checkJson json check document = .invalid error := by
  simp only [checkJson, hargs, checkText_eq_invalid_iff.mpr h]

theorem checkJson_of_valid (document : Text) (hargs : threeArguments check = (pointer, op, want))
    (hvalid : ∀ error, ¬Objection lang op want error) :
    (∀ doc, json.parse document = .ok doc → lang.checkJson json check document =
      lang.checkText pointer op (json.textAt doc pointer) want) ∧
    ∀ detail, json.parse document = .error detail →
      lang.checkJson json check document = .invalid (.badJson detail) := by
  simp only [checkJson, hargs]
  split
  case h_1 error h => exact absurd (checkText_eq_invalid_iff.mp h) (hvalid error)
  case h_2 =>
    constructor
    · intro doc hparse
      rw [hparse]
    · intro detail hparse
      rw [hparse]

/-- A check of a document is invalid if there is an objection to it or the document is malformed. -/
theorem exists_checkJson_eq_invalid_iff (hargs : threeArguments check = (pointer, op, want)) :
    (∃ error, lang.checkJson json check document = .invalid error) ↔
      (∃ error, Objection lang op want error) ∨ ∃ detail, json.parse document = .error detail := by
  by_cases hobjection : ∃ error, Objection lang op want error
  · obtain ⟨error, h⟩ := hobjection
    exact ⟨fun _ => Or.inl ⟨error, h⟩, fun _ => ⟨error, checkJson_of_objection hargs h⟩⟩
  · have hvalid : ∀ error, ¬Objection lang op want error := fun error h => hobjection ⟨error, h⟩
    obtain ⟨hok, herror⟩ := checkJson_of_valid document hargs hvalid
    constructor
    · rintro ⟨error, h⟩
      cases hparse : json.parse document with
      | ok doc =>
          rw [hok doc hparse] at h
          exact absurd (checkText_eq_invalid_iff.mp h) (hvalid error)
      | error detail => exact Or.inr ⟨detail, rfl⟩
    · rintro (h | ⟨detail, hparse⟩)
      · exact absurd h hobjection
      · exact ⟨_, herror detail hparse⟩

/-- Negated checks of a document have opposite outcomes if they have a value to compare. -/
theorem checkJson_opposed_iff {k : Test.Kind} {check' : Text}
    (hargs : threeArguments check = (pointer, k.operator, want))
    (hargs' : threeArguments check' = (pointer, k.negation, want)) :
    (lang.checkJson json check document).Opposed (lang.checkJson json check' document) ↔
      (∀ error, ¬Objection lang k.operator want error) ∧
        ∃ doc, json.parse document = .ok doc := by
  constructor
  · intro hopposed
    have hnot : ¬∃ error, lang.checkJson json check document = .invalid error := by
      rintro ⟨error, h⟩
      exact hopposed.ne_invalid error h
    rw [exists_checkJson_eq_invalid_iff hargs] at hnot
    refine ⟨fun error h => hnot (Or.inl ⟨error, h⟩), ?_⟩
    cases hparse : json.parse document with
    | ok doc => exact ⟨doc, rfl⟩
    | error detail => exact absurd (Or.inr ⟨detail, hparse⟩) hnot
  · rintro ⟨hvalid, doc, hparse⟩
    have hvalid' : ∀ error, ¬Objection lang k.negation want error :=
      fun error h => hvalid error (objection_negation_iff.mp h)
    -- without something to compare with there would be an objection
    have hfits : k.Fits lang want :=
      Classical.byContradiction fun h => (exists_objection h).elim hvalid
    rw [(checkJson_of_valid document hargs hvalid).1 doc hparse,
      (checkJson_of_valid document hargs' hvalid').1 doc hparse]
    exact (checkText_opposed hfits).1

end Documents

end PatternLanguage

/-! ## Counterparts -/

section Counterparts

variable {r s : Run} {rs : List Run}

theorem Run.stripNewline_field (r : Run) : Text.stripNewline r.field = r.field :=
  Text.stripNewline_of_not_mem fun hmem => absurd (r.solid '\n' hmem) (by decide)

/-- The three arguments of a text with at least two fields. -/
theorem threeArguments_runs (l : Layout) (hruns : l.runs = r :: s :: rs) :
    threeArguments l.text = (r.field, s.field, Text.stripNewline (rs.flatMap Run.text)) := by
  have hfields : l.fields = r.field :: s.field :: rs.map Run.field := by
    rw [Layout.fields, hruns]
    rfl
  have hrest : l.textFrom 2 = rs.flatMap Run.text := by
    rw [Layout.textFrom, hruns]
    rfl
  have hsplit := l.splitArguments_text_some 1 (by rw [hfields]; exact List.cons_ne_nil _ _)
  rw [hrest, hfields] at hsplit
  cases rs with
  | nil =>
      rw [if_pos (by simp)] at hsplit
      simp [threeArguments, Arguments.ofBody, Arguments.get, hsplit, Run.stripNewline_field]
  | cons t ts =>
      rw [if_neg (by simp)] at hsplit
      simp [threeArguments, Arguments.ofBody, Arguments.get, hsplit, Run.stripNewline_field]

/-- A second argument needs two fields. -/
theorem exists_runs_of_threeArguments (l : Layout) (h : (threeArguments l.text).2.1 ≠ []) :
    ∃ r s rs, l.runs = r :: s :: rs := by
  have hlength : 2 ≤ (splitArguments (some 3) l.text).length := by
    refine Classical.byContradiction fun hshort => h ?_
    show Text.stripNewline ((splitArguments (some 3) l.text)[1]?.getD []) = []
    rw [List.getElem?_eq_none (by omega)]
    rfl
  cases hruns : l.runs with
  | nil =>
      have hblank := l.isBlank_of_fields_eq_nil (by rw [Layout.fields, hruns]; rfl)
      by_cases hempty : l.text = []
      · rw [hempty, splitArguments_nil] at hlength
        simp at hlength
      · rw [splitArguments_blank (by simp) (by simp) hempty hblank] at hlength
        simp at hlength
  | cons r rs =>
      have hfields : l.fields = r.field :: rs.map Run.field := by
        rw [Layout.fields, hruns]
        rfl
      rw [l.length_splitArguments (by rw [hfields]; exact List.cons_ne_nil _ _), hfields] at hlength
      cases rs with
      | nil => simp at hlength
      | cons s rs => exact ⟨r, s, rs, rfl⟩

/-- The second argument of a text stands in it as a field, and another field may be put there. -/
theorem threeArguments_exchange {text first second third second' : Text}
    (hargs : threeArguments text = (first, second, third)) (hsecond : second ≠ [])
    (hsecond' : second' ≠ []) (hsolid : ∀ c ∈ second', isBlank c = false) :
    ∃ before behind, text = before ++ second ++ behind ∧
      threeArguments (before ++ second' ++ behind) = (first, second', third) := by
  obtain ⟨l, rfl⟩ := Layout.exists_text_eq text
  obtain ⟨r, s, rs, hruns⟩ := exists_runs_of_threeArguments l (by rw [hargs]; exact hsecond)
  rw [threeArguments_runs l hruns] at hargs
  obtain ⟨rfl, hpair⟩ := Prod.mk.inj hargs
  obtain ⟨rfl, rfl⟩ := Prod.mk.inj hpair
  -- the gaps around the field stay, so the fields stay apart
  let s' : Run := ⟨second', s.gap, hsecond', hsolid, s.blank⟩
  have hapart : Apart (r :: s' :: rs) := by
    have h := l.apart
    rw [hruns] at h
    obtain ⟨hgap, htail⟩ := List.isChain_cons_cons.mp h
    refine List.isChain_cons_cons.mpr ⟨hgap, ?_⟩
    cases rs with
    | nil => exact List.isChain_singleton s'
    | cons t ts => exact List.isChain_cons_cons.mpr (List.isChain_cons_cons.mp htail)
  let l' : Layout := ⟨l.lead, r :: s' :: rs, l.blank, hapart⟩
  refine ⟨l.lead ++ r.text, s.gap ++ rs.flatMap Run.text, ?_, ?_⟩
  · simp [Layout.text, hruns, Run.text]
  · have htext : l.lead ++ r.text ++ second' ++ (s.gap ++ rs.flatMap Run.text) = l'.text := by
      simp [Layout.text, Run.text, l', s']
    rw [htext]
    exact threeArguments_runs l' rfl

/-- Operators are fields. -/
theorem Test.Kind.Owns.solid {k : Test.Kind} {op : Text} (h : k.Owns op) :
    op ≠ [] ∧ ∀ c ∈ op, isBlank c = false := by
  have hall : op ≠ [] ∧ op.all (!isBlank ·) = true := by
    cases k <;> rcases h with rfl | rfl <;> exact ⟨List.cons_ne_nil _ _, by decide⟩
  exact ⟨hall.1, fun c hc => by simpa using List.all_eq_true.mp hall.2 c hc⟩

end Counterparts

/-- The value that is checked has no say in whether a check is valid, and negated operators are
    exact complements, whatever the patterns and the documents are. A check is invalid by an
    objection to its operator and expected value, with the same error and so with the same message
    for every value. The two operators of a kind are both invalid where there is nothing to compare
    with, with one error; elsewhere one passes and the other fails, and the plain one passes just
    the values that are what it asks for. A check of a document, which is first tried on the value
    `_`, is invalid if that trial is or the document is malformed, and for no other reason. Two
    checks with one pointer, one expected value and the two operators of a kind have opposite
    outcomes on every document, if the trial is valid and the document is well-formed, and only
    then. And every check with an operator of a kind has such a counterpart, in which the other
    operator stands in its place. -/
theorem checks_complementary (lang : PatternLanguage) (json : JsonLibrary)
    (what op got want : Text) (k : Test.Kind) :
    (∀ error, lang.checkText what op got want = .invalid error ↔ Objection lang op want error) ∧
    (∀ (what' got' : Text) (error : CheckError),
      lang.checkText what op got want = .invalid error ↔
        lang.checkText what' op got' want = .invalid error) ∧
    ((¬k.Fits lang want ∧ ∃ error, lang.checkText what k.operator got want = .invalid error ∧
        lang.checkText what k.negation got want = .invalid error) ∨
      (k.Fits lang want ∧
        (lang.checkText what k.operator got want).Opposed
          (lang.checkText what k.negation got want) ∧
        (lang.checkText what k.operator got want = .pass ↔ k.Relates lang want got))) ∧
    (∀ check document pointer, threeArguments check = (pointer, op, want) →
      ((∃ error, lang.checkJson json check document = .invalid error) ↔
        (∃ error, lang.checkText pointer op ['_'] want = .invalid error) ∨
          ∃ detail, json.parse document = .error detail)) ∧
    (∀ check check' document pointer, threeArguments check = (pointer, k.operator, want) →
      threeArguments check' = (pointer, k.negation, want) →
      ((lang.checkJson json check document).Opposed (lang.checkJson json check' document) ↔
        (∀ error, lang.checkText pointer k.operator ['_'] want ≠ .invalid error) ∧
          ∃ doc, json.parse document = .ok doc)) ∧
    ∀ check pointer op', threeArguments check = (pointer, op, want) → k.Owns op → k.Owns op' →
      ∃ before behind, check = before ++ op ++ behind ∧
        threeArguments (before ++ op' ++ behind) = (pointer, op', want) := by
  have hinvalid := @PatternLanguage.checkText_eq_invalid_iff lang
  refine ⟨fun error => hinvalid, fun what' got' error => hinvalid.trans hinvalid.symm,
    ?_, ?_, ?_, ?_⟩
  · by_cases hfits : k.Fits lang want
    · exact Or.inr ⟨hfits, PatternLanguage.checkText_opposed hfits⟩
    · obtain ⟨error, h⟩ := PatternLanguage.exists_objection hfits
      exact Or.inl ⟨hfits, error, hinvalid.mpr h,
        hinvalid.mpr (PatternLanguage.objection_negation_iff.mpr h)⟩
  · intro check document pointer hargs
    simp only [hinvalid]
    exact PatternLanguage.exists_checkJson_eq_invalid_iff hargs
  · intro check check' document pointer hargs hargs'
    simp only [ne_eq, hinvalid]
    exact PatternLanguage.checkJson_opposed_iff hargs hargs'
  · intro check pointer op' hargs hop hop'
    exact threeArguments_exchange hargs hop.solid.1 hop'.solid.1 hop'.solid.2

/-- A pattern for a field of a document, and the check with the other operator in its place, with
    the patterns and documents of the program. -/
theorem checks_complementary_pattern :
    let check := "/name ~ ^\"A".toList
    let check' := "/name !~ ^\"A".toList
    let document := "\x7b\"name\":\"Alice\"\x7d".toList
    let pointer := "/name".toList
    let want := "^\"A".toList
    (threeArguments check = (pointer, Test.Kind.pattern.operator, want) ∧
      threeArguments check' = (pointer, Test.Kind.pattern.negation, want) ∧
      ∃ doc, Json.library.parse document = .ok doc) ∧
    (checkJson check document).Opposed (checkJson check' document) ∧
    ∃ before behind, check = before ++ Test.Kind.pattern.operator ++ behind ∧
      threeArguments (before ++ Test.Kind.pattern.negation ++ behind) =
        (pointer, Test.Kind.pattern.negation, want) := by
  intro check check' document pointer want
  have hargs : threeArguments check = (pointer, Test.Kind.pattern.operator, want) := by
    decide +kernel
  have hargs' : threeArguments check' = (pointer, Test.Kind.pattern.negation, want) := by
    decide +kernel
  have hparse : ∃ doc, Json.library.parse document = .ok doc := by
    have hok : (Json.library.parse document).isOk = true := by decide +kernel
    cases hparse : Json.library.parse document with
    | ok doc => exact ⟨doc, rfl⟩
    | error detail =>
        rw [hparse] at hok
        cases hok
  have htrial : checkText pointer Test.Kind.pattern.operator ['_'] want =
      .fail "/name does not match \x60^\"A\x60 (but should)\t_" := by decide +kernel
  have hvalid : ∀ error,
      checkText pointer Test.Kind.pattern.operator ['_'] want ≠ .invalid error := by
    intro error
    rw [htrial]
    exact Outcome.noConfusion
  obtain ⟨-, -, -, -, hpair, hcounterpart⟩ := checks_complementary Pattern.language Json.library
    pointer Test.Kind.pattern.operator ['_'] want .pattern
  exact ⟨⟨hargs, hargs', hparse⟩,
    (hpair check check' document pointer hargs hargs').mpr ⟨hvalid, hparse⟩,
    hcounterpart check pointer Test.Kind.pattern.negation hargs (Or.inl rfl) (Or.inr rfl)⟩

end LineScript
