import LineScript.Proofs.Occurrences
import LineScript.Proofs.Places

/-!
# What a listed range covers

A range is put together from a line number and a fixed column: 0 for a command, 1 for a command in
the text of a definition, and the width of the word `define` and one blank for a name that is
declared. The reader skips blanks that these columns do not count, so the name may stand further to
the right than the range says. It stands in the line of the range, and nothing but skipped blanks
lies between.

* `readAll_lines`: the lines of a command.
* `splitName_layout`: what stands on its first line.
* `Lead`: what may stand before a name.
* `Document.references_spelled`: where the name of a listed range stands.
-/

namespace LineScript

/-! ## Starts of texts -/

namespace Text

theorem pieces_cons_of_ne {α : Type} [DecidableEq α] {sep a : α} (ha : a ≠ sep) (as : List α) :
    pieces sep (a :: as) = (a :: (pieces sep as)[0]?.getD []) :: (pieces sep as).tail := by
  rw [pieces, if_neg ha]
  cases pieces sep as with
  | nil => rfl
  | cons p ps => rfl

/-- The pieces of the start of a list are starts of its pieces. -/
theorem getElem?_pieces_of_prefix {α : Type} [DecidableEq α] {sep : α} {as bs : List α}
    (h : as <+: bs) {i : Nat} {p : List α} (hp : (pieces sep as)[i]? = some p) :
    ∃ q, (pieces sep bs)[i]? = some q ∧ p <+: q := by
  induction as generalizing bs i p with
  | nil => cases hp
  | cons a as ih =>
      cases bs with
      | nil => cases List.prefix_nil.mp h
      | cons b bs =>
          obtain ⟨rfl, hstart⟩ := List.cons_prefix_cons.mp h
          by_cases ha : a = sep
          · rw [pieces, if_pos ha] at hp ⊢
            cases i with
            | zero => exact ⟨[a], rfl, Option.some.inj hp ▸ List.prefix_refl _⟩
            | succ i => exact ih hstart hp
          · rw [pieces_cons_of_ne ha] at hp ⊢
            cases i with
            | zero =>
                -- the first piece goes on, and starts as the first piece of the longer list does
                obtain rfl := Option.some.inj hp
                refine ⟨_, rfl, List.cons_prefix_cons.mpr ⟨rfl, ?_⟩⟩
                cases hfirst : (pieces sep as)[0]? with
                | none => exact List.nil_prefix
                | some p =>
                    obtain ⟨q, hq, hprefix⟩ := ih hstart hfirst
                    rw [hq]
                    exact hprefix
            | succ i =>
                rw [List.getElem?_cons_succ, List.getElem?_tail] at hp ⊢
                exact ih hstart hp

theorem stripNewline_isPrefix (t : Text) : stripNewline t <+: t := by
  rw [stripNewline]
  split
  · exact List.dropLast_prefix t
  · exact List.prefix_refl t

end Text

/-! ## The first line of a command -/

theorem takeWhile_append_cons {α : Type} {p : α → Bool} {a : α} (ha : p a = false)
    (as rest : List α) : (as ++ a :: rest).takeWhile p = as.takeWhile p := by
  induction as with
  | nil => exact List.takeWhile_cons_of_neg (by rw [ha]; exact Bool.false_ne_true)
  | cons b as ih =>
      rw [List.cons_append]
      by_cases hb : p b = true
      · rw [List.takeWhile_cons_of_pos hb, List.takeWhile_cons_of_pos hb, ih]
      · rw [List.takeWhile_cons_of_neg hb, List.takeWhile_cons_of_neg hb]

/-- The name is split off the first line, and the lines below it belong to the body. -/
theorem splitName_append_newline (head rest : Text) :
    splitName (head ++ '\n' :: rest) =
      ((splitName head).1, (splitName head).2 ++ '\n' :: rest) := by
  simp only [splitName]
  rw [takeWhile_append_cons (by decide), dropWhile_append_cons (by decide),
    dropWhile_append_cons (by decide)]

/-- A line is the name between blanks, and the body; if there is a body, there is a blank before
    it. -/
theorem splitName_layout {head : Text} (hhead : '\n' ∉ head) :
    ∃ before gap, head = before ++ ((splitName head).1 ++ (gap ++ (splitName head).2)) ∧
      (∀ c ∈ before, isBlank c = true) ∧ (∀ c ∈ gap, isBlank c = true) ∧
      ((splitName head).2 ≠ [] → gap ≠ []) := by
  let inName : Char → Bool := fun c => c ≠ ' ' && c ≠ '\t' && c ≠ '\n'
  let between : Char → Bool := fun c => c = ' ' || c = '\t'
  obtain ⟨before, behind, hname, hbefore, hbehind⟩ := Text.trim_layout (head.takeWhile inName)
  refine ⟨before, behind ++ (head.dropWhile inName).takeWhile between, ?_, hbefore, ?_, ?_⟩
  · calc head = head.takeWhile inName ++ head.dropWhile inName :=
          List.takeWhile_append_dropWhile.symm
      _ = before ++ (Text.trim (head.takeWhile inName) ++ behind) ++
          ((head.dropWhile inName).takeWhile between ++
            (head.dropWhile inName).dropWhile between) := by
          rw [← hname]
          exact congrArg (head.takeWhile inName ++ ·) List.takeWhile_append_dropWhile.symm
      _ = _ := by
          simp only [List.append_assoc]
          rfl
  · intro c hc
    rcases List.mem_append.mp hc with hc | hc
    · exact hbehind c hc
    · have hbetween : between c = true := List.all_eq_true.mp List.all_takeWhile c hc
      have hor : c = ' ' ∨ c = '\t' := by simpa [between] using hbetween
      rcases hor with rfl | rfl
      · decide
      · decide
  · intro hbody hgap
    -- what ends the name is no line feed, so it is dropped before the body
    cases hrest : head.dropWhile inName with
    | nil => exact hbody (by show (head.dropWhile inName).dropWhile between = []; rw [hrest]; rfl)
    | cons c rest =>
        have hout : inName c = false := by
          have hfirst := List.head?_dropWhile_not inName head
          rw [hrest] at hfirst
          simpa using hfirst
        have hc : c ≠ '\n' := by
          rintro rfl
          have hmem : '\n' ∈ head.dropWhile inName := by
            rw [hrest]
            exact List.mem_cons_self
          exact hhead ((List.dropWhile_sublist inName).subset hmem)
        have hbetween : between c = true := by
          by_cases hspace : c = ' '
          · simp [between, hspace]
          · by_cases htab : c = '\t'
            · simp [between, htab]
            · simp [inName, hspace, htab, hc] at hout
        rw [hrest, List.takeWhile_cons_of_pos hbetween] at hgap
        exact List.cons_ne_nil _ _ (List.append_eq_nil_iff.mp hgap).2

theorem not_mem_splitName {head : Text} (hhead : '\n' ∉ head) : '\n' ∉ (splitName head).2 := by
  intro hmem
  exact hhead ((List.dropWhile_sublist _).subset ((List.dropWhile_sublist _).subset hmem))

/-! ## The lines of a command -/

theorem Stream.getElem?_ofText {t l : Text} {i : Nat} :
    (Stream.ofText t)[i]? = some (.text l) ↔ (Text.physicalLines t)[i]? = some l := by
  rw [Stream.ofText, List.getElem?_map, Option.map_eq_some_iff]
  constructor
  · rintro ⟨l', hl', heq⟩
    rw [hl', Line.text.inj heq]
  · intro h
    exact ⟨l, h, rfl⟩

/-- The lines of a command, by their numbers. -/
theorem Stream.getElem?_tabbed {t first : Text} {before behind : Stream} {ls : List Text}
    (h : Stream.ofText t = before ++ (.text first :: tabbed ls ++ behind)) :
    (Text.physicalLines t)[before.length]? = some first ∧
      ∀ i l, ls[i]? = some l →
        (Text.physicalLines t)[before.length + 1 + i]? = some ('\t' :: l) := by
  constructor
  · rw [← Stream.getElem?_ofText, h, List.getElem?_append_right (Nat.le_refl _), Nat.sub_self]
    rfl
  · intro i l hl
    obtain ⟨hi, -⟩ := List.getElem?_eq_some_iff.mp hl
    have htabbed : (tabbed ls)[i]? = some (.text ('\t' :: l)) := by
      rw [tabbed, List.getElem?_map, hl]
      rfl
    rw [← Stream.getElem?_ofText, h, List.getElem?_append_right (by omega),
      show before.length + 1 + i - before.length = i + 1 by omega, List.cons_append,
      List.getElem?_cons_succ,
      List.getElem?_append_left (by rw [tabbed, List.length_map]; exact hi), htabbed]

theorem Stream.cut_ofText (t : Text) : (Stream.ofText t).Cut := by
  rw [← Stream.ofBytes_encodeUtf8]
  exact Stream.cut_ofBytes _ none

/-- Continuation lines that are joined are cut again where they were, and only an empty last one is
    lost. -/
theorem Stream.Cut.physicalLines_flatten {ls : List Text} {behind : Stream}
    (h : Stream.Cut (LineScript.tabbed ls ++ behind)) :
    Text.physicalLines ls.flatten <+: ls := by
  obtain ⟨ls₁, last, rfl, hls₁, hlast⟩ := h.tabbed
  rw [List.flatten_append, Text.physicalLines, Text.pieces_closed hls₁]
  refine (List.prefix_append_right_inj _).mpr ?_
  rcases hlast with rfl | ⟨l, rfl, hl⟩
  · exact List.prefix_refl _
  · rw [List.flatten_singleton]
    by_cases hempty : l = []
    · rw [hempty]
      exact List.nil_prefix
    · have hpieces := Text.pieces_append hempty hl []
      rw [List.append_nil] at hpieces
      rw [hpieces]
      exact List.prefix_refl _

/-- The lines of a command in a text: `head` is its first line, and if there is more to its body,
    the lines of `tail` start the lines below, each behind a tab. The name and the body are split
    off `head` and `tail`. -/
theorem readAll_lines {t : Text} {e : Expression} (he : e ∈ (readAll (Stream.ofText t)).1)
    (hname : e.name ≠ []) :
    ∃ head, '\n' ∉ head ∧ e.name = (splitName head).1 ∧ 0 < e.line ∧
      (∃ l, (Text.physicalLines t)[e.line - 1]? = some l ∧ Text.stripNewline l = head) ∧
      (e.body = (splitName head).2 ∨ ∃ tail, e.body = (splitName head).2 ++ '\n' :: tail ∧
        ∀ i l, (Text.physicalLines tail)[i]? = some l →
          ∃ l', (Text.physicalLines t)[e.line + i]? = some ('\t' :: l') ∧ l <+: l') := by
  obtain ⟨before, first, ls, comment, behind, hs, hline, htext⟩ := readFrom_command he hname
  have hcut := Stream.cut_ofText t
  rw [hs] at hcut
  obtain ⟨hfirst, hrest⟩ := hcut.suffix
  obtain ⟨hat, hbelow⟩ := Stream.getElem?_tabbed hs
  rw [Nat.zero_add] at hline
  rw [← hline] at hbelow
  rw [show before.length = e.line - 1 by omega] at hat
  have hsplit : (e.name, e.body) = splitName (Text.stripNewline (first ++ ls.flatten)) := by
    rw [htext]
    rfl
  rcases hfirst _ rfl with ⟨head, hhead, rfl⟩ | ⟨hfree, hnone⟩
  · rw [List.append_assoc, List.singleton_append] at hsplit
    by_cases htail : ls.flatten = []
    · rw [htail, Text.stripNewline_append] at hsplit
      obtain ⟨hn, hb⟩ := Prod.mk.inj hsplit
      exact ⟨head, hhead, hn, by omega, ⟨_, hat, Text.stripNewline_append head⟩, .inl hb⟩
    · have hstrip : Text.stripNewline (head ++ '\n' :: ls.flatten) =
          head ++ '\n' :: Text.stripNewline ls.flatten := by
        rw [List.append_cons, Text.stripNewline_append_of_ne_nil _ htail, List.append_assoc]
        rfl
      rw [hstrip, splitName_append_newline] at hsplit
      obtain ⟨hn, hb⟩ := Prod.mk.inj hsplit
      refine ⟨head, hhead, hn, by omega, ⟨_, hat, Text.stripNewline_append head⟩,
        .inr ⟨_, hb, ?_⟩⟩
      intro i l hl
      obtain ⟨q, hq, hprefix⟩ := Text.getElem?_pieces_of_prefix (Text.stripNewline_isPrefix _) hl
      have hqs : ls[i]? = some q := by
        obtain ⟨hi, hget⟩ := List.getElem?_eq_some_iff.mp hq
        rw [← hget]
        exact List.prefix_iff_getElem?.mp hrest.physicalLines_flatten i hi
      exact ⟨q, hbelow i q hqs, hprefix⟩
  · -- a line without a line feed is the last one
    obtain rfl : ls = [] := List.map_eq_nil_iff.mp (List.append_eq_nil_iff.mp hnone).1
    have hstrip := Text.stripNewline_of_not_mem hfree
    rw [List.flatten_nil, List.append_nil, hstrip] at hsplit
    obtain ⟨hn, hb⟩ := Prod.mk.inj hsplit
    exact ⟨first, hfree, hn, by omega, ⟨first, hat, hstrip⟩, .inl hb⟩

/-! ## What a range covers -/

/-- A line of a text, by its number. -/
def Text.lineAt (t : Text) (line : Nat) : Text := (Text.physicalLines t)[line - 1]?.getD []

/-- The characters that a range covers. -/
def Span.covered (text : Text) (s : Span) : Text :=
  ((text.lineAt s.line).drop s.start).take (s.stop - s.start)

/-- What may stand in a line before a name whose range starts at a column. -/
inductive Lead : Nat → Text → Prop
  /-- A command stands at the start of its line, behind blanks that are trimmed off its name. -/
  | command {blanks : Text} : (∀ c ∈ blanks, isBlank c = true) → Lead 0 blanks
  /-- A command in the text of a definition stands behind a tab. -/
  | inside {blanks : Text} : (∀ c ∈ blanks, isBlank c = true) → Lead 1 ('\t' :: blanks)
  /-- A name that is declared stands behind the word `define`, with at least one blank between. -/
  | declared {blanks gap : Text} : (∀ c ∈ blanks, isBlank c = true) →
      (∀ c ∈ gap, isBlank c = true) → gap ≠ [] →
      Lead declarationColumn (blanks ++ (defineWord ++ gap))

/-- A name stands no further to the left than its range says. -/
theorem Lead.le_length {start : Nat} {before : Text} (h : Lead start before) :
    start ≤ before.length := by
  cases h with
  | command _ => exact Nat.zero_le _
  | inside _ => exact Nat.succ_le_succ (Nat.zero_le _)
  | @declared blanks gap _ _ hgap =>
      have hpos := List.length_pos_iff.mpr hgap
      rw [List.length_append, List.length_append, declarationColumn]
      omega

/-- A range that starts too far to the left starts at a blank, unless there are blanks at the start
    of a line that declares a name. -/
theorem Lead.drop_eq_cons {start : Nat} {before : Text} (h : Lead start before)
    (hfirst : start = declarationColumn → ∀ c ∈ before.head?, isBlank c = false)
    (hlt : start < before.length) :
    ∃ c rest, before.drop start = c :: rest ∧ isBlank c = true := by
  obtain ⟨c, rest, hdrop⟩ := List.exists_cons_of_ne_nil
    (show before.drop start ≠ [] by rw [ne_eq, List.drop_eq_nil_iff]; omega)
  refine ⟨c, rest, hdrop, ?_⟩
  have hmem : c ∈ before.drop start := by
    rw [hdrop]
    exact List.mem_cons_self
  cases h with
  | command hblanks => exact hblanks c hmem
  | inside hblanks => exact hblanks c hmem
  | @declared blanks gap hblanks hgap _ =>
      cases blanks with
      | nil =>
          rw [List.nil_append, declarationColumn, ← List.drop_drop, List.drop_left] at hmem
          exact hgap c (List.mem_of_mem_drop hmem)
      | cons b blanks =>
          have hb := hfirst rfl b rfl
          rw [hblanks b List.mem_cons_self] at hb
          cases hb

/-- A range is for a name that stands in its line: the range is as long as the name, and only what
    the reader skips stands before the name, which does not start with a blank. -/
def Span.Marks (text : Text) (s : Span) (name : Text) : Prop :=
  0 < s.line ∧ s.stop = s.start + name.length ∧ (∀ c ∈ name.head?, isBlank c = false) ∧
    ∃ before behind, text.lineAt s.line = before ++ (name ++ behind) ∧ Lead s.start before

section Marks

variable {text : Text} {e : Expression}

theorem Text.lineAt_of_getElem? {line : Nat} {l : Text}
    (h : (Text.physicalLines text)[line - 1]? = some l) : text.lineAt line = l := by
  rw [Text.lineAt, h, Option.getD_some]

/-- The range of a command. -/
theorem marks_command (he : e ∈ (readAll (Stream.ofText text)).1) :
    (Span.ofName e.line 0 e.name).Marks text e.name := by
  have hhead? := (Expression.readName_of_mem_readFrom 0 _ e he).head
  refine ⟨line_pos_of_mem_readAll text e he, rfl, hhead?, ?_⟩
  by_cases hempty : e.name = []
  · refine ⟨[], text.lineAt e.line, ?_, .command fun c hc => by cases hc⟩
    rw [hempty]
    rfl
  · obtain ⟨head, hhead, hname, -, ⟨l, hl, hstart⟩, -⟩ := readAll_lines he hempty
    obtain ⟨more, rfl⟩ : head <+: l := hstart ▸ Text.stripNewline_isPrefix l
    obtain ⟨before, gap, hlayout, hbefore, -, -⟩ := splitName_layout hhead
    refine ⟨before, gap ++ ((splitName head).2 ++ more), ?_, .command hbefore⟩
    show text.lineAt e.line = _
    rw [Text.lineAt_of_getElem? hl, hname]
    conv => lhs; rw [hlayout]
    simp only [List.append_assoc]

/-- The range of a name that is declared. -/
theorem marks_declared (he : e ∈ (readAll (Stream.ofText text)).1) {name : Text}
    (h : declaredName? e = some name) :
    (Span.ofName e.line declarationColumn name).Marks text name := by
  have hdefine := e.name_of_declaredName? h
  have hempty : e.name ≠ [] := by
    rw [hdefine]
    exact List.cons_ne_nil _ _
  obtain ⟨head, hhead, hname, hpos, ⟨l, hl, hstart⟩, hbody⟩ := readAll_lines he hempty
  obtain ⟨more, rfl⟩ : head <+: l := hstart ▸ Text.stripNewline_isPrefix l
  obtain ⟨before, gap, hlayout, hbefore, hgap, hapart⟩ := splitName_layout hhead
  have hfirst : (Text.cutLine e.body).1 = (splitName head).2 := by
    have hfree := not_mem_splitName hhead
    rcases hbody with hbody | ⟨tail, hbody, -⟩
    · rw [hbody, Text.cutLine_of_not_mem hfree]
    · rw [hbody, Text.cutLine_append hfree]
  obtain ⟨hsolid, rfl⟩ : name ≠ [] ∧ (Text.cutField (splitName head).2).1 = name := by
    rw [declaredName?, if_pos hdefine, definitionHeader, hfirst] at h
    cases hcut : (Text.cutField (splitName head).2).1 with
    | nil =>
        rw [hcut] at h
        cases h
    | cons c cs =>
        rw [hcut] at h
        exact ⟨Option.some.inj h ▸ List.cons_ne_nil c cs, Option.some.inj h⟩
  obtain ⟨skipped, behind, hfield, hskipped, -⟩ := Text.cutField_layout (splitName head).2
  have hhead? : ∀ c ∈ (Text.cutField (splitName head).2).1.head?, isBlank c = false :=
    fun c hc => Text.isBlank_of_mem_cutField (List.mem_of_head? hc)
  refine ⟨hpos, rfl, hhead?, before ++ (defineWord ++ (gap ++ skipped)), behind ++ more, ?_, ?_⟩
  · show text.lineAt e.line = _
    rw [Text.lineAt_of_getElem? hl, ← hdefine, hname]
    conv => lhs; rw [hlayout]; arg 1; arg 2; arg 2; arg 2; rw [hfield]
    simp only [List.append_assoc]
  · refine .declared hbefore ?_ ?_
    · intro c hc
      exact (List.mem_append.mp hc).elim (hgap c) (hskipped c)
    · intro hnone
      refine hapart ?_ (List.append_eq_nil_iff.mp hnone).1
      intro hnil
      rw [hnil] at hsolid
      exact hsolid rfl

/-- The range of a command in the text of a definition. -/
theorem marks_inside (he : e ∈ (readAll (Stream.ofText text)).1) (hdefine : e.name ≠ [])
    {line : Nat} {call : Text} (h : (line, call) ∈ bodyCalls e) :
    (Span.ofName line 1 call).Marks text call := by
  obtain ⟨rest, hrest, hempty, e', he', rfl, rfl⟩ := mem_bodyCalls_iff.mp h
  obtain ⟨head, hhead, -, hpos, -, hbody⟩ := readAll_lines he hdefine
  obtain ⟨head', hhead', hname', hpos', ⟨l', hl', hstart'⟩, -⟩ := readAll_lines he' hempty
  -- the lines that are read on their own are those below the first line of the definition
  have hlines : ∃ l, (Text.physicalLines text)[e.line + (e'.line - 1)]? = some ('\t' :: l) ∧
      l' <+: l := by
    have hfree := not_mem_splitName hhead
    rcases hbody with hbody | ⟨tail, hbody, hbelow⟩
    · rw [hbody, Text.cutLine_of_not_mem hfree] at hrest
      cases hrest
    · rw [hbody, Text.cutLine_append hfree] at hrest
      obtain rfl := Option.some.inj hrest
      exact hbelow _ _ hl'
  obtain ⟨l, hl, hprefix⟩ := hlines
  obtain ⟨more, rfl⟩ : head' <+: l :=
    (hstart' ▸ Text.stripNewline_isPrefix l' : head' <+: l').trans hprefix
  obtain ⟨before, gap, hlayout, hbefore, -, -⟩ := splitName_layout hhead'
  refine ⟨Nat.lt_of_lt_of_le hpos (Nat.le_add_right _ _), rfl,
    (Expression.readName_of_mem_readFrom 0 _ e' he').head, '\t' :: before,
    gap ++ ((splitName head').2 ++ more), ?_, .inside hbefore⟩
  have hline : e.line + e'.line - 1 = e.line + (e'.line - 1) := by omega
  have hat : text.lineAt (e.line + e'.line) = '\t' :: (head' ++ more) :=
    Text.lineAt_of_getElem? (by rw [hline]; exact hl)
  show text.lineAt (e.line + e'.line) = _
  rw [hat, hname']
  conv => lhs; rw [hlayout]
  simp only [List.append_assoc, List.cons_append]

theorem Expression.marks_occurrences (he : e ∈ (readAll (Stream.ofText text)).1) :
    ∀ o ∈ e.occurrences, o.span.Marks text o.name := by
  intro o ho
  rw [Expression.occurrences] at ho
  rcases List.mem_cons.mp ho with rfl | ho
  · exact marks_command he
  · cases hdeclared : declaredName? e with
    | none =>
        rw [hdeclared] at ho
        cases ho
    | some name =>
        rw [hdeclared] at ho
        rcases List.mem_cons.mp ho with rfl | ho
        · exact marks_declared he hdeclared
        · obtain ⟨⟨line, call⟩, hcall, rfl⟩ := List.mem_map.mp ho
          have hdefine : e.name ≠ [] := by
            rw [e.name_of_declaredName? hdeclared]
            exact List.cons_ne_nil _ _
          exact marks_inside he hdefine hcall

end Marks

namespace Document

variable {doc : Document} {name : Text} {s : Span}

/-- Without the declarations there are no other places. -/
theorem references_subset (declarations : Bool) :
    doc.references name declarations ⊆ doc.references name true := by
  cases declarations with
  | true => exact List.Subset.refl _
  | false =>
      rw [references, references, if_neg Bool.false_ne_true, List.nil_append]
      refine List.subset_append_of_subset_right _ (List.map_subset _ ?_)
      intro o ho
      obtain ⟨ho, hname⟩ := List.mem_filter.mp ho
      refine List.mem_filter.mpr ⟨ho, ?_⟩
      simp only [Bool.and_eq_true] at hname
      simpa using hname.1

/-- A range that is listed is for the name in its line. For every file system, setting, name and
    text of a document, every name `n` and every range that is listed in the document for `n`, with
    or without declarations: the line of the range is a line of the text in which `n` stands, the
    range is as long as `n`, and before `n` there are only blanks, a tab and blanks, or the word
    `define` between blanks, as the column of the range says. So `n` stands in the range or further
    to the right. The characters in the range spell `n` if nothing is skipped that the column does
    not count, and, unless the line of a definition starts with a blank, only then. -/
theorem references_spelled (fs : FileSystem) (o : Options) (name text n : Text)
    (declarations : Bool) (s : Span)
    (h : (name, s) ∈ (ofText fs o name text).references n declarations) :
    0 < s.line ∧ s.stop = s.start + n.length ∧
    ∃ before behind, text.lineAt s.line = before ++ (n ++ behind) ∧ Lead s.start before ∧
      s.start ≤ before.length ∧ (s.start = before.length → s.covered text = n) ∧
      (n ≠ [] → (s.start = declarationColumn → ∀ c ∈ before.head?, isBlank c = false) →
        s.covered text = n → s.start = before.length) := by
  obtain ⟨a, ha, rfl, rfl⟩ := mem_references_iff.mp (references_subset declarations h)
  obtain ⟨e, he, ha⟩ := List.mem_flatMap.mp ha
  obtain ⟨hpos, hstop, hhead, before, behind, hline, hlead⟩ := e.marks_occurrences he a ha
  have hcovered : a.span.covered text =
      ((before ++ (a.name ++ behind)).drop a.span.start).take a.name.length := by
    rw [Span.covered, hstop, hline, Nat.add_sub_cancel_left]
  refine ⟨hpos, hstop, before, behind, hline, hlead, hlead.le_length, ?_, ?_⟩
  · intro hstart
    rw [hcovered, hstart, List.drop_left, List.take_left]
  · intro hne hfirst hspell
    by_contra hshort
    have hlt : a.span.start < before.length := Nat.lt_of_le_of_ne hlead.le_length hshort
    obtain ⟨c, rest, hdrop, hblank⟩ := hlead.drop_eq_cons hfirst hlt
    obtain ⟨d, name', hname⟩ := List.exists_cons_of_ne_nil hne
    -- the range starts at a blank, and the name does not
    rw [hcovered, List.drop_append_of_le_length hlead.le_length, hdrop, hname, List.cons_append,
      List.length_cons, List.take_succ_cons] at hspell
    have hsolid := hhead d (by rw [hname]; rfl)
    rw [← (List.cons.inj hspell).1, hblank] at hsolid
    cases hsolid

/-- Between `define` and the name there are three blanks, and the range starts at the second. -/
theorem references_spelled_wide_gap :
    let main := "main".toList
    let text : Text := "define   greet x\n\techo $x\ngreet A\n".toList
    let greet := "greet".toList
    let s : Span := ⟨1, 7, 12⟩
    ((main, s) ∈ (ofText { files := [] } {} main text).references greet true ∧
      s.covered text = "  gre".toList) ∧
    0 < s.line ∧ s.stop = s.start + greet.length ∧
    ∃ before behind, text.lineAt s.line = before ++ (greet ++ behind) ∧ Lead s.start before ∧
      s.start ≤ before.length ∧ (s.start = before.length → s.covered text = greet) ∧
      (greet ≠ [] → (s.start = declarationColumn → ∀ c ∈ before.head?, isBlank c = false) →
        s.covered text = greet → s.start = before.length) := by
  intro main text greet s
  have hlisted : (main, s) ∈ (ofText { files := [] } {} main text).references greet true := by
    decide +kernel
  exact ⟨⟨hlisted, by decide⟩,
    references_spelled { files := [] } {} main text greet true s hlisted⟩

end Document

end LineScript
