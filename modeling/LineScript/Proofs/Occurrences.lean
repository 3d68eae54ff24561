import LineScript.Document.Occurrence
import LineScript.Proofs.Blocks

/-!
# Names in a document do not overlap

A document looks at its names in two ways: by name, where all places of one name are listed, and by
position, where the first place that holds the position is taken. Both ways see the same, because no
two names share a position. This rests on the line numbers at two levels: the text of a definition
is read on its own, and its lines are counted on from the line of the definition, which must not
reach the next expression.

* `Partition.spaced`: an expression ends before the next one starts.
* `Expression.occurrences_within`: the names of an expression stand on its lines.
* `Document.occurrences_ordered`: the names of a document stand one behind the other.
* `Document.symbolAt_iff_references`: both ways to look at them agree.
-/

namespace LineScript

/-! ## How many lines a text has -/

namespace Text

section Pieces

variable {α : Type} [DecidableEq α] {sep : α}

/-- A piece has a separator at its end, if it has one. -/
theorem not_mem_dropLast_piece {as p : List α} (h : p ∈ pieces sep as) : sep ∉ p.dropLast := by
  induction as generalizing p with
  | nil => cases h
  | cons a as ih =>
      rw [pieces] at h
      by_cases ha : a = sep
      · rw [if_pos ha] at h
        rcases List.mem_cons.mp h with rfl | h
        · exact List.not_mem_nil
        · exact ih h
      · rw [if_neg ha] at h
        cases hpieces : pieces sep as with
        | nil =>
            rw [hpieces] at h
            rw [List.mem_singleton.mp h]
            exact List.not_mem_nil
        | cons q qs =>
            rw [hpieces] at h ih
            rcases List.mem_cons.mp h with rfl | h
            · obtain ⟨b, rest, rfl, -⟩ := piece_eq_cons (hpieces ▸ List.mem_cons_self)
              have hq := ih List.mem_cons_self
              rw [List.dropLast_cons_of_ne_nil (List.cons_ne_nil b rest), List.mem_cons]
              rintro (heq | hmem)
              · exact ha heq.symm
              · exact hq hmem
            · exact ih (List.mem_cons_of_mem q h)

/-- There are no more pieces than separators, but for one behind the last. -/
theorem length_pieces_le (as : List α) : (pieces sep as).length ≤ as.count sep + 1 := by
  induction as with
  | nil => exact Nat.zero_le _
  | cons a as ih =>
      rw [pieces]
      by_cases ha : a = sep
      · rw [if_pos ha, List.length_cons, ha, List.count_cons_self]
        exact Nat.succ_le_succ ih
      · rw [if_neg ha, List.count_cons_of_ne ha]
        cases hpieces : pieces sep as with
        | nil => exact Nat.succ_le_succ (Nat.zero_le _)
        | cons q qs =>
            rw [hpieces] at ih
            exact ih

end Pieces

/-- A line holds at most one line feed. -/
theorem count_le_one {l : Text} (h : '\n' ∉ l.dropLast) : l.count '\n' ≤ 1 := by
  rcases List.eq_nil_or_concat l with rfl | ⟨most, c, rfl⟩
  · exact Nat.zero_le 1
  · rw [List.concat_eq_append, List.dropLast_concat] at h
    rw [List.concat_eq_append, List.count_append, List.count_eq_zero.mpr h, Nat.zero_add]
    exact List.count_le_length

/-- A line without its line feed holds none. -/
theorem not_mem_stripNewline {l : Text} (h : '\n' ∉ l.dropLast) : '\n' ∉ stripNewline l := by
  rw [stripNewline]
  split
  · exact h
  · rename_i hlast
    intro hmem
    have hne : l ≠ [] := List.ne_nil_of_mem hmem
    rw [← List.dropLast_concat_getLast hne, List.mem_append, List.mem_singleton] at hmem
    rcases hmem with hmem | heq
    · exact h hmem
    · exact hlast (by rw [List.getLast?_eq_some_getLast hne, ← heq])

/-- Lines that are joined have a line feed between any two of them, and one at the end that is
    stripped. -/
theorem count_stripNewline_flatten_lt {ls : List Text} (hne : ls ≠ [])
    (h : ∀ l ∈ ls, '\n' ∉ l.dropLast) : (stripNewline ls.flatten).count '\n' < ls.length := by
  induction ls with
  | nil => exact absurd rfl hne
  | cons l ls ih =>
      have hl := h l List.mem_cons_self
      rw [List.flatten_cons, List.length_cons]
      by_cases hrest : ls.flatten = []
      · rw [hrest, List.append_nil, List.count_eq_zero.mpr (not_mem_stripNewline hl)]
        exact Nat.succ_pos _
      · have hls : ls ≠ [] := by
          rintro rfl
          exact hrest rfl
        have hmore := ih hls fun l hl => h l (List.mem_cons_of_mem _ hl)
        have hone := count_le_one hl
        rw [stripNewline_append_of_ne_nil l hrest, List.count_append]
        omega

end Text

/-! ## An expression ends before the next one starts -/

/-- The body of an expression has no more line feeds than its command has continuation lines. -/
theorem count_body_ofText_le (line : Nat) (comment : Text) {first : Text} {ls : List Text}
    (h : ∀ l ∈ first :: ls, '\n' ∉ l.dropLast) :
    (Expression.ofText line comment (first ++ ls.flatten)).body.count '\n' ≤ ls.length := by
  have hlines := Text.count_stripNewline_flatten_lt (List.cons_ne_nil first ls) h
  have hbody : (Expression.ofText line comment (first ++ ls.flatten)).body.Sublist
      (Text.stripNewline (first :: ls).flatten) :=
    (List.dropWhile_sublist _).trans (List.dropWhile_sublist _)
  have hcount := hbody.count_le '\n'
  rw [List.length_cons] at hlines
  omega

/-- So has the body of a block's expression. -/
theorem Block.count_body_le (b : Block) (n : Nat) (h : ∀ l ∈ b.lines, '\n' ∉ l.dropLast) :
    (b.expression n).body.count '\n' ≤ b.continuation.length := by
  cases hmain : b.main with
  | none =>
      rw [Block.expression, hmain]
      exact Nat.zero_le _
  | some first =>
      have hlines : ∀ l ∈ first :: b.continuation.map List.tail, '\n' ∉ l.dropLast := by
        intro l hl
        rw [b.lines_of_main hmain] at h
        rcases List.mem_cons.mp hl with rfl | hl
        · exact h l (List.mem_append_right _ List.mem_cons_self)
        · obtain ⟨l', hl', rfl⟩ := List.mem_map.mp hl
          intro hmem
          rw [← List.tail_dropLast] at hmem
          exact h l' (List.mem_append_right _ (List.mem_cons_of_mem _ hl'))
            (List.mem_of_mem_tail hmem)
      have hle := count_body_ofText_le (n + b.comments.length + 1) b.comments.flatten hlines
      rw [List.length_map] at hle
      rw [Block.expression, hmain]
      exact hle

namespace Partition

variable {n : Nat} {bs : List Block} {es : List Expression}

/-- The lines of an expression end before the next one starts, also if the last of them are lines
    of its body. -/
theorem spaced (h : Partition n bs es) (hlines : ∀ b ∈ bs, ∀ l ∈ b.lines, '\n' ∉ l.dropLast) :
    es.Pairwise fun e e' => e.line + e.body.count '\n' < e'.line := by
  induction h with
  | nil => exact .nil
  | last => exact List.pairwise_singleton _ _
  | @cons n b bs es hmain hmore ih =>
      refine (ih fun b hb => hlines b (List.mem_cons_of_mem _ hb)).cons ?_
      intro e he
      obtain ⟨l, hl⟩ := Option.ne_none_iff_exists'.mp hmain
      have hline := b.line_expression hl n
      have hsize := b.length_lines hl
      have hbody := b.count_body_le n (hlines b List.mem_cons_self)
      have hlater := hmore.increasing.1 e he
      omega

/-- A command stands on one of the lines. -/
theorem line_le (h : Partition n bs es) {e : Expression} (he : e ∈ es) (hname : e.name ≠ []) :
    e.line ≤ n + (bs.flatMap Block.lines).length := by
  induction h with
  | nil => cases he
  | @last n b hmain =>
      obtain rfl := List.mem_singleton.mp he
      rw [Block.expression, hmain] at hname
      exact absurd rfl hname
  | @cons n b bs es hmain hmore ih =>
      obtain ⟨l, hl⟩ := Option.ne_none_iff_exists'.mp hmain
      have hsize := b.length_lines hl
      rw [List.flatMap_cons, List.length_append]
      rcases List.mem_cons.mp he with rfl | he
      · rw [b.line_expression hl n]
        omega
      · have hle := ih he
        omega

end Partition

section Texts

variable (t : Text)

/-- The blocks that a text starts with are those of the expressions that are read from it. -/
theorem exists_partition : ∃ bs behind, bs.flatMap Block.lines ++ behind = Text.physicalLines t ∧
    Partition 0 bs (readAll (Stream.ofText t)).1 := by
  have hlines : ∀ l ∈ Text.physicalLines t, ∃ c rest, l = c :: rest ∧ (c = '\n' → rest = []) :=
    fun l hl => Text.piece_eq_cons hl
  obtain ⟨bs, behind, hbs, hpartition, -⟩ := readFrom_blocks hlines
  exact ⟨bs, behind, hbs, hpartition⟩

theorem readAll_spaced : (readAll (Stream.ofText t)).1.Pairwise
    fun e e' => e.line + e.body.count '\n' < e'.line := by
  obtain ⟨bs, behind, hbs, hpartition⟩ := exists_partition t
  refine hpartition.spaced fun b hb l hl => ?_
  have hmem : l ∈ Text.physicalLines t := by
    rw [← hbs]
    exact List.mem_append_left _ (List.mem_flatMap.mpr ⟨b, hb, hl⟩)
  exact Text.not_mem_dropLast_piece hmem

theorem line_pos_of_mem_readAll : ∀ e ∈ (readAll (Stream.ofText t)).1, 0 < e.line := by
  obtain ⟨bs, behind, -, hpartition⟩ := exists_partition t
  exact hpartition.increasing.1

theorem line_le_of_mem_readAll : ∀ e ∈ (readAll (Stream.ofText t)).1, e.name ≠ [] →
    e.line ≤ t.count '\n' + 1 := by
  intro e he hname
  obtain ⟨bs, behind, hbs, hpartition⟩ := exists_partition t
  have hline := hpartition.line_le he hname
  have hlength : (bs.flatMap Block.lines).length ≤ (Text.physicalLines t).length := by
    rw [← hbs, List.length_append]
    exact Nat.le_add_right _ _
  have hpieces : (Text.physicalLines t).length ≤ t.count '\n' + 1 := Text.length_pieces_le t
  omega

end Texts

/-! ## The names of an expression -/

theorem Text.eq_of_cutLine {t head rest : Text} (h : cutLine t = (head, some rest)) :
    t = head ++ '\n' :: rest := by
  have happend := List.takeWhile_append_dropWhile (p := fun c => decide (c ≠ '\n')) (l := t)
  have hhead := List.head?_dropWhile_not (fun c => decide (c ≠ '\n')) t
  rw [cutLine] at h
  cases hdrop : t.dropWhile (· ≠ '\n') with
  | nil =>
      rw [hdrop] at h
      cases (Prod.mk.inj h).2
  | cons c rest' =>
      rw [hdrop] at h happend hhead
      obtain ⟨rfl, hrest⟩ := Prod.mk.inj h
      obtain rfl := Option.some.inj hrest
      have hc : c = '\n' := by simpa using hhead
      rw [hc] at happend
      exact happend.symm

section BodyCalls

variable {decl : Expression} {line : Nat} {call : Text}

/-- A command in the text of a definition, by the text that is read on its own. -/
theorem mem_bodyCalls_iff : (line, call) ∈ bodyCalls decl ↔
    ∃ rest, (Text.cutLine decl.body).2 = some rest ∧ call ≠ [] ∧
      ∃ e ∈ (readAll (Stream.ofText rest)).1, line = decl.line + e.line ∧ call = e.name := by
  simp only [bodyCalls, List.mem_map, List.mem_filter, Prod.mk.injEq]
  constructor
  · rintro ⟨e, ⟨he, hnamed⟩, rfl, rfl⟩
    cases hcut : (Text.cutLine decl.body).2 with
    | none =>
        have hempty : readAll (Stream.ofText []) = ([], none) := readFrom.eq_def 0 []
        rw [hcut, Option.getD_none, hempty] at he
        cases he
    | some rest =>
        rw [hcut] at he
        refine ⟨rest, rfl, ?_, e, he, rfl, rfl⟩
        simpa [Expression.isBlankLine] using hnamed
  · rintro ⟨rest, hcut, hnamed, e, he, rfl, rfl⟩
    rw [hcut]
    refine ⟨e, ⟨he, ?_⟩, rfl, rfl⟩
    simpa [Expression.isBlankLine] using hnamed

/-- The commands in the text of a definition stand below its first line, and no lower than its last
    line. -/
theorem bodyCalls_within (h : (line, call) ∈ bodyCalls decl) :
    decl.line < line ∧ line ≤ decl.line + decl.body.count '\n' := by
  obtain ⟨rest, hcut, hname, e, he, rfl, rfl⟩ := mem_bodyCalls_iff.mp h
  have hbody := Text.eq_of_cutLine
    (show Text.cutLine decl.body = (_, some rest) from Prod.ext rfl hcut)
  have hcount : decl.body.count '\n' = (Text.cutLine decl.body).1.count '\n' +
      (rest.count '\n' + 1) := by
    conv => lhs; rw [hbody]
    rw [List.count_append, List.count_cons_self]
  have hpos := line_pos_of_mem_readAll rest e he
  have hle := line_le_of_mem_readAll rest e he hname
  omega

theorem bodyCalls_increasing (decl : Expression) : (bodyCalls decl).Pairwise (·.1 < ·.1) := by
  simp only [bodyCalls, List.pairwise_map]
  refine List.Pairwise.filter _ ((readAll_spaced _).imp ?_)
  intro e e' hspaced
  omega

end BodyCalls

/-- One range ends before the other starts. -/
def Span.Before (s s' : Span) : Prop :=
  s.line < s'.line ∨ (s.line = s'.line ∧ s.stop ≤ s'.start)

theorem Span.contains_iff {s : Span} {line column : Nat} :
    s.contains line column = true ↔ s.line = line ∧ s.start ≤ column ∧ column < s.stop := by
  simp [Span.contains, and_assoc]

/-- Ranges that do not touch each other have no position in common. -/
theorem Span.Before.disjoint {s s' : Span} (h : s.Before s') {line column : Nat}
    (hs : s.contains line column = true) : s'.contains line column = false := by
  rw [Span.contains_iff] at hs
  rw [Bool.eq_false_iff, ne_eq, Span.contains_iff]
  rcases h with hline | ⟨hline, hstop⟩
  · omega
  · omega

namespace Expression

variable (e : Expression)

/-- The names of an expression stand on its lines. -/
theorem occurrences_within : ∀ o ∈ e.occurrences,
    e.line ≤ o.span.line ∧ o.span.line ≤ e.line + e.body.count '\n' := by
  intro o ho
  rw [occurrences] at ho
  rcases List.mem_cons.mp ho with rfl | ho
  · exact ⟨Nat.le_refl _, Nat.le_add_right _ _⟩
  · cases hdeclared : declaredName? e with
    | none =>
        rw [hdeclared] at ho
        cases ho
    | some name =>
        rw [hdeclared] at ho
        rcases List.mem_cons.mp ho with rfl | ho
        · exact ⟨Nat.le_refl _, Nat.le_add_right _ _⟩
        · obtain ⟨⟨line, call⟩, hcall, rfl⟩ := List.mem_map.mp ho
          obtain ⟨hlt, hle⟩ := bodyCalls_within hcall
          exact ⟨Nat.le_of_lt hlt, hle⟩

/-- What declares a name is a definition. -/
theorem name_of_declaredName? {name : Text} (h : declaredName? e = some name) :
    e.name = defineWord := by
  rw [declaredName?] at h
  split at h
  · assumption
  · cases h

/-- The names of an expression stand one behind the other. -/
theorem occurrences_ordered : e.occurrences.Pairwise fun o o' => o.span.Before o'.span := by
  rw [occurrences]
  cases hdeclared : declaredName? e with
  | none => exact List.pairwise_singleton _ _
  | some name =>
      -- the commands in the text stand below the line of the definition
      refine .cons ?_ (.cons ?_ ?_)
      · intro o ho
        rcases List.mem_cons.mp ho with rfl | ho
        · -- the word `define` ends in front of the name it declares
          refine .inr ⟨rfl, ?_⟩
          show 0 + e.name.length ≤ declarationColumn
          rw [e.name_of_declaredName? hdeclared]
          decide
        · obtain ⟨⟨line, call⟩, hcall, rfl⟩ := List.mem_map.mp ho
          exact .inl (bodyCalls_within hcall).1
      · intro o ho
        obtain ⟨⟨line, call⟩, hcall, rfl⟩ := List.mem_map.mp ho
        exact .inl (bodyCalls_within hcall).1
      · rw [List.pairwise_map]
        exact (bodyCalls_increasing e).imp fun hlt => .inl hlt

end Expression

/-! ## The names of a document -/

/-- In a list in which at most one element has a property, that one is found. -/
theorem find?_of_pairwise {α : Type} {p : α → Bool} {l : List α}
    (h : l.Pairwise fun a b => p a = true → p b = false) {a : α} (ha : a ∈ l) (hp : p a = true) :
    l.find? p = some a := by
  induction h with
  | nil => cases ha
  | @cons b l hb hl ih =>
      rcases List.mem_cons.mp ha with rfl | ha
      · exact List.find?_cons_of_pos hp
      · have hnot : ¬p b = true := by
          intro hpb
          rw [hb a ha hpb] at hp
          cases hp
        rw [List.find?_cons_of_neg hnot]
        exact ih ha

namespace Document

variable {doc : Document} {name : Text} {s : Span}

/-- A place in the document itself is listed for the name that stands there. -/
theorem mem_references_iff :
    (doc.name, s) ∈ doc.references name true ↔
      ∃ o ∈ doc.occurrences, o.name = name ∧ o.span = s := by
  simp only [references, if_pos, List.mem_append, List.mem_map, Option.mem_toList, Prod.mk.injEq,
    Option.filter_eq_some_iff]
  constructor
  · rintro (⟨d, ⟨-, hfile⟩, hsame, -⟩ | ⟨o, ho, -, rfl⟩)
    · simp [hsame] at hfile
    · obtain ⟨ho, hname⟩ := List.mem_filter.mp ho
      exact ⟨o, ho, by simpa using hname, rfl⟩
  · rintro ⟨o, ho, hname, rfl⟩
    exact .inr ⟨o, List.mem_filter.mpr ⟨ho, by simpa using hname⟩, trivial, rfl⟩

/-- The names of a document stand one behind the other. -/
theorem occurrences_ordered (fs : FileSystem) (o : Options) (name text : Text) :
    (ofText fs o name text).occurrences.Pairwise fun a b => a.span.Before b.span := by
  show (List.flatMap _ (readAll (Stream.ofText text)).1).Pairwise _
  refine List.pairwise_flatMap.mpr ⟨fun e _ => e.occurrences_ordered, ?_⟩
  refine (readAll_spaced text).imp ?_
  intro e e' hspaced a ha b hb
  have hafter := (e.occurrences_within a ha).2
  have hbefore := (e'.occurrences_within b hb).1
  exact .inl (by omega)

/-- Looking up a position and listing a name are inverse views of a document. For every file system,
    setting, name and text of a document: the lookup of a position gives a name and a range exactly
    if the range holds the position and is listed, in the document itself, among the places of that
    name with its declarations. So places that are listed, for one name or for two, and that have a
    position in common are one place of one name, and in the order of the document no two places at
    which names stand have a position in common. -/
theorem symbolAt_iff_references (fs : FileSystem) (o : Options) (name text : Text) :
    let doc := ofText fs o name text
    (∀ line column n s, doc.symbolAt line column = some (n, s) ↔
      s.contains line column = true ∧ (doc.name, s) ∈ doc.references n true) ∧
    (∀ n s n' s', (doc.name, s) ∈ doc.references n true → (doc.name, s') ∈ doc.references n' true →
      (∃ line column, s.contains line column = true ∧ s'.contains line column = true) →
      n = n' ∧ s = s') ∧
    doc.occurrences.Pairwise fun a b =>
      ∀ line column,
        ¬(a.span.contains line column = true ∧ b.span.contains line column = true) := by
  intro doc
  have hordered : doc.occurrences.Pairwise fun a b => a.span.Before b.span :=
    occurrences_ordered fs o name text
  have hfind : ∀ {line column : Nat} {a : Occurrence}, a ∈ doc.occurrences →
      a.span.contains line column = true →
      doc.occurrences.find? (·.span.contains line column) = some a := by
    intro line column a ha hspan
    exact find?_of_pairwise (hordered.imp fun h hs => h.disjoint hs) ha hspan
  refine ⟨?_, ?_, ?_⟩
  · intro line column n s
    rw [mem_references_iff, symbolAt]
    constructor
    · intro h
      obtain ⟨a, ha, heq⟩ := Option.map_eq_some_iff.mp h
      obtain ⟨rfl, rfl⟩ := Prod.mk.inj heq
      have hspan := List.find?_some ha
      exact ⟨hspan, a, List.mem_of_find?_eq_some ha, rfl, rfl⟩
    · rintro ⟨hspan, a, ha, rfl, rfl⟩
      rw [hfind ha hspan]
      rfl
  · rintro n s n' s' href href' ⟨line, column, hspan, hspan'⟩
    obtain ⟨a, ha, rfl, rfl⟩ := mem_references_iff.mp href
    obtain ⟨b, hb, rfl, rfl⟩ := mem_references_iff.mp href'
    obtain rfl : a = b := Option.some.inj ((hfind ha hspan).symm.trans (hfind hb hspan'))
    exact ⟨rfl, rfl⟩
  · refine hordered.imp ?_
    rintro a b hbefore line column ⟨ha, hb⟩
    rw [hbefore.disjoint ha] at hb
    cases hb

end Document

end LineScript
