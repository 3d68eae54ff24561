import LineScript.Proofs.Fields
import LineScript.Template.Reference

/-!
# What is text and what is a reference

Putting values in goes through a text once, from left to right, and looks far ahead for a closing
brace. What it finds does not depend on the values: every text falls into literal pieces and
references in one way, which is a matter of the text alone, and putting values in is to go through
these pieces in order.

* `Refers`: what a reference looks like behind its `$`, and `Segmented`: how a text falls apart.
* `segmented_segments` and `Segmented.eq_segments`: in one way, which `segments` computes.
* `Segmented.substitute_eq`: putting values in, whatever asking for a value does.
* `substitute_segments`: the same for a table of values, with the names that are asked for.
-/

namespace LineScript

/-! ## Pieces of a text -/

/-- A piece of a text. -/
inductive Segment where
  /-- Text that stands for itself. -/
  | literal (text : Text)
  /-- A reference to a name, as it is spelled. -/
  | reference (spelling name : Text)
deriving DecidableEq, Repr, Inhabited

namespace Segment

/-- The piece as it stands in the text. -/
def raw : Segment → Text
  | literal text => text
  | reference spelling _ => spelling

/-- The name that is referred to. -/
def name? : Segment → Option Text
  | literal _ => none
  | reference _ name => some name

/-- What the piece stands for, where asking for a value is a computation. -/
def fill {m : Type → Type} [Monad m] (lookup : Text → m Text) : Segment → m Text
  | literal text => pure text
  | reference _ name => lookup name

/-- What the piece stands for, where every name that is referred to has a value. -/
def value (lookup : Text → Option Text) : Segment → Text
  | literal text => text
  | reference _ name => (lookup name).getD []

end Segment

/-- An ASCII letter, an ASCII digit or an underscore. -/
def IsWordChar (c : Char) : Prop :=
  ('a' ≤ c ∧ c ≤ 'z') ∨ ('A' ≤ c ∧ c ≤ 'Z') ∨ ('0' ≤ c ∧ c ≤ '9') ∨ c = '_'

/-- A character that is a name on its own: an ASCII digit or one of seven marks. -/
def IsMark (c : Char) : Prop :=
  ('0' ≤ c ∧ c ≤ '9') ∨ c ∈ ['*', '#', '$', '@', '!', '?', '-']

/-- Behind a `$` and in front of `rest`, the text `spelling` is a reference to `name`. -/
inductive Refers : (spelling name rest : Text) → Prop where
  /-- An opening brace refers to everything up to the first closing one, if that is anything. -/
  | braced {name rest : Text} (hne : name ≠ []) (hfirst : '\x7d' ∉ name) :
      Refers ('\x7b' :: (name ++ ['\x7d'])) name rest
  /-- A digit or a mark is a name on its own. -/
  | mark {c : Char} {rest : Text} (hmark : IsMark c) : Refers [c] [c] rest
  /-- Otherwise a name goes on as long as there are characters of a name. -/
  | word {c : Char} {name rest : Text} (hplain : ¬IsMark c) (hword : ∀ d ∈ c :: name, IsWordChar d)
      (hstop : ∀ d ∈ rest.head?, ¬IsWordChar d) : Refers (c :: name) (c :: name) rest

/-- A text falls into pieces from the left. -/
inductive Segmented : Text → List Segment → Prop where
  | done : Segmented [] []
  /-- Text up to the next `$`, or to the end. -/
  | literal {text rest : Text} {segs : List Segment} (hne : text ≠ []) (hfree : '$' ∉ text)
      (hstop : ∀ c ∈ rest.head?, c = '$') (hrest : Segmented rest segs) :
      Segmented (text ++ rest) (.literal text :: segs)
  /-- A `$` with a reference behind it. -/
  | reference {spelling name rest : Text} {segs : List Segment}
      (hrefers : Refers spelling name rest) (hrest : Segmented rest segs) :
      Segmented ('$' :: (spelling ++ rest)) (.reference ('$' :: spelling) name :: segs)
  /-- A `$` with no reference behind it is text. -/
  | dollar {rest : Text} {segs : List Segment}
      (hnone : ∀ spelling name after, rest = spelling ++ after → ¬Refers spelling name after)
      (hrest : Segmented rest segs) : Segmented ('$' :: rest) (.literal ['$'] :: segs)

/-! ## Finding a reference -/

theorem isNameChar_iff {c : Char} : isNameChar c = true ↔ IsWordChar c := by
  have hspelled : isNameChar c = (decide ('A' ≤ c ∧ c ≤ 'Z') ||
      decide ('a' ≤ c) && decide (c ≤ 'z') || decide ('0' ≤ c) && decide (c ≤ '9') ||
      c == '_') := rfl
  rw [hspelled]
  simp only [IsWordChar, Bool.or_eq_true, Bool.and_eq_true, decide_eq_true_eq, beq_iff_eq]
  rw [or_assoc, or_assoc]
  exact or_left_comm

theorem isSingleName_iff {c : Char} : isSingleName c = true ↔ IsMark c := by
  simp only [isSingleName, IsMark, Char.isDigit, Bool.or_eq_true, Bool.and_eq_true,
    decide_eq_true_eq, List.contains_iff_mem]
  exact Iff.rfl

section Finding

variable {spelling name rest after : Text}

/-- The text up to the first closing brace. -/
theorem span_brace (hfirst : '\x7d' ∉ name) (rest : Text) :
    (name ++ '\x7d' :: rest).takeWhile (· ≠ '\x7d') = name ∧
      (name ++ '\x7d' :: rest).dropWhile (· ≠ '\x7d') = '\x7d' :: rest := by
  refine span_append ?_ (by simp)
  intro c hc
  rw [decide_eq_true_eq]
  rintro rfl
  exact hfirst hc

/-- The text up to the first character that is not one of a name. -/
theorem span_word (hword : ∀ c ∈ name, IsWordChar c) (hstop : ∀ c ∈ rest.head?, ¬IsWordChar c) :
    (name ++ rest).takeWhile isNameChar = name ∧ (name ++ rest).dropWhile isNameChar = rest := by
  refine span_append (fun c hc => isNameChar_iff.mpr (hword c hc)) fun c hc => ?_
  rw [Bool.eq_false_iff]
  exact fun hname => hstop c hc (isNameChar_iff.mp hname)

/-- A brace is neither a name on its own nor a character of a longer one. -/
theorem not_isMark_brace : ¬IsMark '\x7b' ∧ ¬IsWordChar '\x7b' := by
  rw [← isSingleName_iff, ← isNameChar_iff]
  decide

/-- A reference is found. -/
theorem Refers.reference_eq (h : Refers spelling name rest) :
    LineScript.reference (spelling ++ rest) = some (name, rest) := by
  cases h with
  | braced hne hfirst =>
      obtain ⟨htake, hdrop⟩ := span_brace hfirst rest
      rw [List.cons_append, List.append_assoc, List.singleton_append, LineScript.reference,
        if_pos rfl, htake, hdrop]
      obtain ⟨c, name, rfl⟩ := List.exists_cons_of_ne_nil hne
      rfl
  | @mark c _ hmark =>
      have hbrace : c ≠ '\x7b' := by
        rintro rfl
        exact not_isMark_brace.1 hmark
      rw [List.singleton_append, LineScript.reference, if_neg hbrace,
        if_pos (isSingleName_iff.mpr hmark)]
  | @word c name _ hplain hword hstop =>
      have hbrace : c ≠ '\x7b' := by
        rintro rfl
        exact not_isMark_brace.2 (hword _ List.mem_cons_self)
      obtain ⟨htake, hdrop⟩ := span_word (fun d hd => hword d (List.mem_cons_of_mem c hd)) hstop
      rw [List.cons_append, LineScript.reference, if_neg hbrace,
        if_neg (fun hmark => hplain (isSingleName_iff.mp hmark)),
        if_pos (isNameChar_iff.mpr (hword c List.mem_cons_self)), htake, hdrop]

/-- What is found is a reference. -/
theorem exists_refers (h : LineScript.reference after = some (name, rest)) :
    ∃ spelling, after = spelling ++ rest ∧ Refers spelling name rest := by
  cases after with
  | nil => cases h
  | cons c cs =>
      rw [LineScript.reference] at h
      split at h
      · rename_i hbrace
        subst hbrace
        split at h
        · cases h
        · cases h
        · rename_i d rest' hdrop hne
          obtain ⟨rfl, rfl⟩ := Prod.mk.inj (Option.some.inj h)
          have hd : d = '\x7d' := by
            have hhead := List.head?_dropWhile_not (· ≠ '\x7d') cs
            rw [hdrop] at hhead
            simpa using hhead
          have hcs := List.takeWhile_append_dropWhile (p := (· ≠ '\x7d')) (l := cs)
          refine ⟨'\x7b' :: (cs.takeWhile (· ≠ '\x7d') ++ ['\x7d']), ?_, .braced hne ?_⟩
          · rw [hdrop, hd] at hcs
            rw [List.cons_append, List.append_assoc, List.singleton_append, hcs]
          · intro hmem
            simpa using List.mem_takeWhile_imp hmem
      · split at h
        · rename_i hmark
          obtain ⟨rfl, rfl⟩ := Prod.mk.inj (Option.some.inj h)
          exact ⟨[c], rfl, .mark (isSingleName_iff.mp hmark)⟩
        · split at h
          · rename_i hplain hword
            obtain ⟨rfl, rfl⟩ := Prod.mk.inj (Option.some.inj h)
            refine ⟨c :: cs.takeWhile isNameChar, ?_, .word ?_ ?_ ?_⟩
            · rw [List.cons_append, List.takeWhile_append_dropWhile]
            · exact fun hmark => hplain (isSingleName_iff.mpr hmark)
            · intro d hd
              rcases List.mem_cons.mp hd with rfl | hd
              · exact isNameChar_iff.mp hword
              · exact isNameChar_iff.mp (List.mem_takeWhile_imp hd)
            · intro d hd hname
              have hstop : isNameChar d = false := by
                have hhead := List.head?_dropWhile_not isNameChar cs
                rw [hd] at hhead
                exact hhead
              rw [isNameChar_iff.mpr hname] at hstop
              cases hstop
          · cases h

end Finding

/-! ## The pieces of a text -/

/-- The pieces that a text falls into. -/
def segments (t : Text) : List Segment :=
  match t with
  | [] => []
  | c :: cs =>
      if c = '$' then
        match _h : reference cs with
        | some (name, rest) =>
            .reference ('$' :: cs.take (cs.length - rest.length)) name :: segments rest
        | none => .literal ['$'] :: segments cs
      else .literal (c :: cs.takeWhile (· ≠ '$')) :: segments (cs.dropWhile (· ≠ '$'))
termination_by t.length
decreasing_by
  · have hlt := length_reference_lt _h
    simp only [List.length_cons]
    omega
  · simp
  · exact Nat.lt_succ_of_le (List.dropWhile_suffix _).length_le

/-- What stands in front of a rest, by its length. -/
theorem take_length_sub (front rest : Text) :
    (front ++ rest).take ((front ++ rest).length - rest.length) = front := by
  rw [List.length_append, Nat.add_sub_cancel, List.take_left]

/-- Every text falls into them. -/
theorem segmented_segments (t : Text) : Segmented t (segments t) := by
  fun_induction segments t with
  | case1 => exact .done
  | case2 cs name rest href ih =>
      obtain ⟨spelling, rfl, hrefers⟩ := exists_refers href
      rw [take_length_sub]
      exact .reference hrefers ih
  | case3 cs href ih =>
      refine .dollar ?_ ih
      rintro spelling name after rfl hrefers
      rw [hrefers.reference_eq] at href
      cases href
  | case4 c cs hc ih =>
      have hsplit : c :: cs = (c :: cs.takeWhile (· ≠ '$')) ++ cs.dropWhile (· ≠ '$') := by
        rw [List.cons_append, List.takeWhile_append_dropWhile]
      rw [hsplit]
      refine .literal (List.cons_ne_nil _ _) ?_ ?_ ih
      · intro hmem
        rcases List.mem_cons.mp hmem with hmem | hmem
        · exact hc hmem.symm
        · simpa using List.mem_takeWhile_imp hmem
      · intro d hd
        have hstop := List.head?_dropWhile_not (· ≠ '$') cs
        rw [hd] at hstop
        simpa using hstop

/-- A text falls apart in no other way. -/
theorem Segmented.eq_segments {t : Text} {segs : List Segment} (h : Segmented t segs) :
    segs = segments t := by
  induction h with
  | done => rw [segments]
  | @literal text rest segs hne hfree hstop hrest ih =>
      obtain ⟨c, text, rfl⟩ := List.exists_cons_of_ne_nil hne
      have hc : c ≠ '$' := by
        rintro rfl
        exact hfree List.mem_cons_self
      have hspan : (text ++ rest).takeWhile (· ≠ '$') = text ∧
          (text ++ rest).dropWhile (· ≠ '$') = rest := by
        refine span_append ?_ ?_
        · intro d hd
          rw [decide_eq_true_eq]
          rintro rfl
          exact hfree (List.mem_cons_of_mem c hd)
        · intro d hd
          rw [hstop d hd]
          rfl
      rw [List.cons_append, segments, if_neg hc, hspan.1, hspan.2, ih]
  | @reference spelling name rest segs hrefers hrest ih =>
      rw [segments, if_pos rfl]
      split
      · rename_i name' rest' href
        rw [hrefers.reference_eq] at href
        obtain ⟨rfl, rfl⟩ := Prod.mk.inj (Option.some.inj href)
        rw [take_length_sub, ih]
      · rename_i href
        rw [hrefers.reference_eq] at href
        cases href
  | @dollar rest segs hnone hrest ih =>
      rw [segments, if_pos rfl]
      split
      · rename_i name after href
        obtain ⟨spelling, hspelling, hrefers⟩ := exists_refers href
        exact absurd hrefers (hnone spelling name after hspelling)
      · rw [ih]

/-- A `$` before a blank is text, braces hold any name, and a digit is a name on its own. -/
example : segments "a$ $\x7bb c\x7d$1d".toList =
    [.literal ['a'], .literal ['$'], .literal [' '],
      .reference "$\x7bb c\x7d".toList "b c".toList, .reference ['$', '1'] ['1'],
      .literal ['d']] := by
  decide +kernel

/-- The pieces make up the text. -/
theorem Segmented.flatMap_raw {t : Text} {segs : List Segment} (h : Segmented t segs) :
    segs.flatMap Segment.raw = t := by
  induction h with
  | done => rfl
  | literal hne hfree hstop hrest ih => rw [List.flatMap_cons, ih]; rfl
  | reference hrefers hrest ih => rw [List.flatMap_cons, ih]; rfl
  | dollar hnone hrest ih => rw [List.flatMap_cons, ih]; rfl

/-! ## Putting values in -/

section Substituting

variable {m : Type → Type} [Monad m] [LawfulMonad m] (lookup : Text → m Text)

/-- Text without a `$` is copied. -/
theorem substitute_append {text : Text} (hfree : '$' ∉ text) (rest : Text) :
    substitute lookup (text ++ rest) = (text ++ ·) <$> substitute lookup rest := by
  induction text with
  | nil => simp
  | cons c text ih =>
      have hc : c ≠ '$' := by
        rintro rfl
        exact hfree List.mem_cons_self
      rw [List.cons_append, substitute, if_neg hc, ih fun h => hfree (List.mem_cons_of_mem c h)]
      simp

/-- Putting values in is to go through the pieces in order. -/
theorem Segmented.substitute_eq {t : Text} {segs : List Segment} (h : Segmented t segs) :
    substitute lookup t = List.flatten <$> segs.mapM (Segment.fill lookup) := by
  induction h with
  | done => rw [substitute]; simp
  | literal hne hfree hstop hrest ih =>
      rw [substitute_append lookup hfree, ih, List.mapM_cons]
      simp [Segment.fill]
  | @reference spelling name rest segs hrefers hrest ih =>
      rw [substitute, if_pos rfl]
      split
      · rename_i name' rest' href
        rw [hrefers.reference_eq] at href
        obtain ⟨rfl, rfl⟩ := Prod.mk.inj (Option.some.inj href)
        rw [ih, List.mapM_cons]
        simp [Segment.fill]
      · rename_i href
        rw [hrefers.reference_eq] at href
        cases href
  | @dollar rest segs hnone hrest ih =>
      rw [substitute, if_pos rfl]
      split
      · rename_i name after href
        obtain ⟨spelling, hspelling, hrefers⟩ := exists_refers href
        exact absurd hrefers (hnone spelling name after hspelling)
      · rw [ih, List.mapM_cons]
        simp [Segment.fill]

end Substituting

/-- A computation that asks for names, keeps them in order, and may fail with one. -/
abbrev Asking (α : Type) := ExceptT Text (StateM (List Text)) α

/-- What comes of it if nothing was asked for before, and the names that were asked for. -/
def Asking.outcome {α : Type} (x : Asking α) : Except Text α × List Text := x.run.run []

/-- Looks a name up in a table. A name without a value is an error. -/
def asking (lookup : Text → Option Text) (name : Text) : Asking Text := do
  modify (· ++ [name])
  match lookup name with
  | some value => pure value
  | none => throw name

section Asking

variable {lookup : Text → Option Text} {segs : List Segment}

theorem run_asking (lookup : Text → Option Text) (name : Text) (asked : List Text) :
    (asking lookup name).run.run asked =
      (match lookup name with
        | some value => .ok value
        | none => .error name, asked ++ [name]) := by
  rw [asking]
  cases lookup name with
  | some value => rfl
  | none => rfl

theorem run_bind {α β : Type} (x : Asking α) (f : α → Asking β) (asked : List Text) :
    (x >>= f).run.run asked =
      match x.run.run asked with
      | (.ok a, asked) => (f a).run.run asked
      | (.error name, asked) => (.error name, asked) := by
  rw [ExceptT.run_bind, StateT.run_bind]
  rcases x.run.run asked with ⟨name | a, later⟩
  · rfl
  · rfl

/-- If every name has a value, all are asked for. -/
theorem run_fill_all (h : ∀ name ∈ segs.filterMap Segment.name?, (lookup name).isSome = true)
    (asked : List Text) :
    (segs.mapM (Segment.fill (asking lookup))).run.run asked =
      (.ok (segs.map (Segment.value lookup)), asked ++ segs.filterMap Segment.name?) := by
  induction segs generalizing asked with
  | nil => rw [List.mapM_nil, List.filterMap_nil, List.append_nil]; rfl
  | cons seg segs ih =>
      cases seg with
      | literal text =>
          have hrest := ih h asked
          rw [List.mapM_cons, Segment.fill, pure_bind, run_bind, hrest]
          rfl
      | reference spelling name =>
          obtain ⟨value, hvalue⟩ := Option.isSome_iff_exists.mp (h name List.mem_cons_self)
          have hrest := ih (fun n hn => h n (List.mem_cons_of_mem name hn)) (asked ++ [name])
          rw [List.mapM_cons, Segment.fill, run_bind, run_asking, hvalue]
          show (segs.mapM _ >>= _ : Asking _).run.run _ = _
          rw [run_bind, hrest, List.append_assoc]
          simp [Segment.value, Segment.name?, hvalue]
          rfl

/-- Otherwise nothing is asked for behind the first name that has none. -/
theorem run_fill_unknown {before behind : List Text} {unknown : Text}
    (hnames : segs.filterMap Segment.name? = before ++ unknown :: behind)
    (hbefore : ∀ name ∈ before, (lookup name).isSome = true) (hunknown : lookup unknown = none)
    (asked : List Text) :
    (segs.mapM (Segment.fill (asking lookup))).run.run asked =
      (.error unknown, asked ++ before ++ [unknown]) := by
  induction segs generalizing asked before with
  | nil => simp at hnames
  | cons seg segs ih =>
      cases seg with
      | literal text =>
          have hrest := ih hnames hbefore asked
          rw [List.mapM_cons, Segment.fill, pure_bind, run_bind, hrest]
      | reference spelling name =>
          have hname : (Segment.reference spelling name).name? = some name := rfl
          rw [List.filterMap_cons_some hname] at hnames
          rw [List.mapM_cons, Segment.fill, run_bind, run_asking]
          cases before with
          | nil =>
              obtain ⟨rfl, -⟩ := List.cons.inj hnames
              rw [hunknown, List.append_nil]
          | cons first before =>
              obtain ⟨rfl, hmore⟩ := List.cons.inj hnames
              obtain ⟨value, hvalue⟩ :=
                Option.isSome_iff_exists.mp (hbefore name List.mem_cons_self)
              have hrest := ih hmore (fun n hn => hbefore n (List.mem_cons_of_mem name hn))
                (asked ++ [name])
              rw [hvalue]
              show (segs.mapM _ >>= _ : Asking _).run.run _ = _
              rw [run_bind, hrest]
              simp

end Asking

/-- Putting values in is one pass over pieces that the text alone decides. Every text falls in
    exactly one way into literal pieces and references, and the pieces one behind the other are the
    text. Whatever asking for a value does, putting values in goes through the pieces in order,
    takes the literal ones as they are and asks for each of the others, and joins what it gets; no
    value is looked at. So with a table of values that has one for every name that is referred to,
    all of these names are asked for in order, and the result is the pieces with their values for
    the references; otherwise the names are asked for up to the first one without a value, which is
    the error. -/
theorem substitute_segments (t : Text) :
    ∃ segs, Segmented t segs ∧ (∀ others, Segmented t others → others = segs) ∧
      segs.flatMap Segment.raw = t ∧
      (∀ (m : Type → Type) [Monad m] [LawfulMonad m] (lookup : Text → m Text),
        substitute lookup t = List.flatten <$> segs.mapM (Segment.fill lookup)) ∧
      ∀ lookup : Text → Option Text,
        let names := segs.filterMap Segment.name?
        ((∀ name ∈ names, (lookup name).isSome = true) →
          (substitute (asking lookup) t).outcome =
            (.ok (segs.flatMap (Segment.value lookup)), names)) ∧
        ∀ before unknown behind, names = before ++ unknown :: behind →
          (∀ name ∈ before, (lookup name).isSome = true) → lookup unknown = none →
          (substitute (asking lookup) t).outcome = (.error unknown, before ++ [unknown]) := by
  have hsegs := segmented_segments t
  refine ⟨segments t, hsegs, fun others h => h.eq_segments, hsegs.flatMap_raw,
    fun m _ _ lookup => hsegs.substitute_eq lookup, ?_⟩
  intro lookup names
  have hjoin : (substitute (asking lookup) t).outcome =
      ((segments t).mapM (Segment.fill (asking lookup)) >>= (pure ·.flatten)).run.run [] := by
    rw [hsegs.substitute_eq, map_eq_pure_bind, Asking.outcome]
  refine ⟨fun hall => ?_, ?_⟩
  · rw [hjoin, run_bind, run_fill_all hall, List.flatMap_def]
    rfl
  · intro before unknown behind hnames hbefore hunknown
    rw [hjoin, run_bind, run_fill_unknown hnames hbefore hunknown]
    rfl

end LineScript
