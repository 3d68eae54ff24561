import LineScript.Proofs.Spelling

/-!
# Commands in the text of a definition

The text of a definition is read twice. As part of a document it is continuation lines, each of
which loses its tab, and the last its line feed. Then it is read on its own, with lines that count
from 1, and a command that is met there is reported by the sum of two numbers. This file says which
line of the document that is, by looking at each line alone.

* `commandLines`: the commands that lines start, with the numbers of the lines.
* `readAll_commandLines`: reading meets these commands and no others, up to an error.
* `commandLines_stripped`: what a text loses on the way does not change them.
* `bodyCalls_physical`: the commands in the text of a definition, by the lines of the document.
-/

namespace LineScript

/-! ## Lines that start a command -/

/-- A line that starts a command: with a character, and not with one that makes the line blank, a
    comment, a continuation or malformed. -/
def startsCommand (l : Text) : Bool :=
  l.head?.any fun c => c ≠ '\n' && c ≠ '#' && c ≠ ' ' && c ≠ '\t'

/-- The name of the command that a line starts, if there is one. -/
def lineCommand? (l : Text) : Option Text :=
  let name := (splitName (Text.stripNewline l)).1
  if startsCommand l = true ∧ name ≠ [] then some name else none

/-- The commands that lines start, in order, each with the number of its line if the first line has
    the number `n`. -/
def commandLines (n : Nat) (ls : List Text) : List (Nat × Text) :=
  (ls.zipIdx n).filterMap fun line => (lineCommand? line.1).map fun name => (line.2, name)

theorem lineCommand?_eq_some_iff {l name : Text} :
    lineCommand? l = some name ↔
      startsCommand l = true ∧ (splitName (Text.stripNewline l)).1 = name ∧ name ≠ [] := by
  rw [lineCommand?]
  split
  · rename_i h
    constructor
    · intro hname
      obtain rfl := Option.some.inj hname
      exact ⟨h.1, rfl, h.2⟩
    · rintro ⟨-, rfl, -⟩
      rfl
  · rename_i h
    constructor
    · intro hname
      cases hname
    · rintro ⟨hstarts, rfl, hname⟩
      exact absurd ⟨hstarts, hname⟩ h

theorem lineCommand?_of_not_starts {l : Text} (h : startsCommand l = false) :
    lineCommand? l = none :=
  if_neg fun hcommand => Bool.false_ne_true (h.symm.trans hcommand.1)

/-- The line of a block starts a command, if it has a name. -/
theorem IsMain.startsCommand {l : Text} (h : IsMain l)
    (hname : (splitName (Text.stripNewline l)).1 ≠ []) : startsCommand l = true := by
  rcases h with rfl | ⟨c, rest, rfl, hnewline, hcomment, hspace, htab⟩
  · exact absurd rfl hname
  · simp [LineScript.startsCommand, hnewline, hcomment, hspace, htab]

/-- The line feed of a line does not matter. -/
theorem lineCommand?_append_newline {l : Text} (h : '\n' ∉ l) :
    lineCommand? (l ++ ['\n']) = lineCommand? l := by
  have hstarts : startsCommand (l ++ ['\n']) = startsCommand l := by
    cases l with
    | nil => rfl
    | cons c l => rfl
  rw [lineCommand?, lineCommand?, hstarts, Text.stripNewline_append,
    Text.stripNewline_of_not_mem h]

section CommandLines

variable {n : Nat} {ls : List Text}

theorem mem_commandLines_iff {line : Nat} {name : Text} :
    (line, name) ∈ commandLines n ls ↔
      ∃ i l, ls[i]? = some l ∧ line = n + i ∧ lineCommand? l = some name := by
  rw [commandLines, List.mem_filterMap]
  constructor
  · rintro ⟨⟨l, k⟩, hmem, hcommand⟩
    obtain ⟨name', hname, heq⟩ := Option.map_eq_some_iff.mp hcommand
    obtain ⟨rfl, rfl⟩ := Prod.mk.inj heq
    obtain ⟨hle, hl⟩ := List.mk_mem_zipIdx_iff_le_and_getElem?_sub.mp hmem
    exact ⟨k - n, l, hl, (Nat.add_sub_of_le hle).symm, hname⟩
  · rintro ⟨i, l, hl, rfl, hname⟩
    refine ⟨(l, n + i), List.mk_add_mem_zipIdx_iff_getElem?.mpr hl, ?_⟩
    rw [hname]
    rfl

theorem commandLines_append (n : Nat) (ls ls' : List Text) :
    commandLines n (ls ++ ls') = commandLines n ls ++ commandLines (n + ls.length) ls' := by
  rw [commandLines, List.zipIdx_append, List.filterMap_append]
  rfl

theorem commandLines_singleton (n : Nat) (l : Text) :
    commandLines n [l] = (lineCommand? l).toList.map fun name => (n, name) := by
  rw [commandLines, List.zipIdx_singleton, List.filterMap_cons]
  cases lineCommand? l with
  | none => rfl
  | some name => rfl

theorem commandLines_add (k n : Nat) (ls : List Text) :
    commandLines (k + n) ls = (commandLines n ls).map fun call => (k + call.1, call.2) := by
  induction ls generalizing n with
  | nil => rfl
  | cons l ls ih =>
      rw [← List.singleton_append, commandLines_append, commandLines_append, List.map_append,
        commandLines_singleton, commandLines_singleton, List.map_map, Nat.add_assoc, ih]
      rfl

theorem commandLines_eq_nil (h : ∀ l ∈ ls, startsCommand l = false) : commandLines n ls = [] := by
  rw [commandLines, List.filterMap_eq_nil_iff]
  intro line hline
  rw [lineCommand?_of_not_starts (h line.1 (List.fst_mem_of_mem_zipIdx hline))]
  rfl

end CommandLines

/-! ## Reading meets the commands -/

namespace Stream.Cut

/-- The first lines of a stream are cut as all of them are. -/
theorem left {s s' : Stream} (h : Stream.Cut (s ++ s')) : Stream.Cut s := by
  induction s with
  | nil => trivial
  | cons l s ih =>
      refine ⟨fun chars hchars => (h.1 chars hchars).imp_right ?_, ih h.2⟩
      rintro ⟨hfree, hnone⟩
      exact ⟨hfree, (List.append_eq_nil_iff.mp hnone).1⟩

/-- Lines may be moved behind a tab. -/
theorem indent {ls : List Text} (h : Stream.Cut (ls.map .text)) :
    Stream.Cut (LineScript.tabbed ls) := by
  induction ls with
  | nil => trivial
  | cons l ls ih =>
      refine ⟨?_, ih h.2⟩
      rintro chars hchars
      obtain rfl := Line.text.inj hchars
      rcases h.1 l rfl with ⟨line, hfree, rfl⟩ | ⟨hfree, hnone⟩
      · refine .inl ⟨'\t' :: line, ?_, rfl⟩
        simpa using hfree
      · refine .inr ⟨?_, ?_⟩
        · simpa using hfree
        · rw [List.map_eq_nil_iff.mp hnone]
          rfl

/-- Lines with others behind them have a line feed each. -/
theorem count_flatten {ls : List Text} {behind : Stream}
    (h : Stream.Cut (ls.map .text ++ behind)) (hmore : behind ≠ []) :
    ls.flatten.count '\n' = ls.length := by
  induction ls with
  | nil => rfl
  | cons l ls ih =>
      rcases h.1 l rfl with ⟨line, hfree, rfl⟩ | ⟨-, hnone⟩
      · rw [List.flatten_cons, List.count_append, ih h.2, List.count_append,
          List.count_eq_zero.mpr hfree, List.length_cons, Nat.add_comm]
        rfl
      · exact absurd (List.append_eq_nil_iff.mp hnone).2 hmore

end Stream.Cut

/-- The name of a command stands on its first line, and what is behind the header of a definition
    are the lines below. -/
theorem splitName_stripNewline {head : Text} (hhead : '\n' ∉ head) (rest : Text) :
    (splitName (Text.stripNewline ((head ++ ['\n']) ++ rest))).1 = (splitName head).1 ∧
      (Text.cutLine (splitName (Text.stripNewline ((head ++ ['\n']) ++ rest))).2).2.getD [] =
        Text.stripNewline rest := by
  have hfree := not_mem_splitName hhead
  by_cases hrest : rest = []
  · rw [hrest, List.append_nil, Text.stripNewline_append, Text.cutLine_of_not_mem hfree]
    exact ⟨rfl, rfl⟩
  · rw [Text.stripNewline_append_of_ne_nil _ hrest, List.append_assoc, List.singleton_append,
      splitName_append_newline, Text.cutLine_append hfree]
    exact ⟨rfl, rfl⟩

namespace Block

variable {b : Block} {l : Text}

theorem comment_expression (b : Block) (n : Nat) :
    (b.expression n).comment = b.comments.flatten := by
  rw [expression]
  split
  · rfl
  · rfl

/-- The name of a block's expression, and the text below its header. -/
theorem split_expression (hmain : b.main = some l) (hcut : Stream.Cut (b.lines.map .text))
    (n : Nat) :
    (b.expression n).name = (splitName (Text.stripNewline l)).1 ∧
      (Text.cutLine (b.expression n).body).2.getD [] =
        Text.stripNewline (b.continuation.map List.tail).flatten := by
  rw [lines_of_main b hmain, List.map_append, List.map_cons] at hcut
  rw [expression, hmain]
  show (splitName (Text.stripNewline _)).1 = _ ∧ (Text.cutLine (splitName _).2).2.getD [] = _
  rcases hcut.suffix.1 l rfl with ⟨head, hhead, rfl⟩ | ⟨hfree, hnone⟩
  · rw [Text.stripNewline_append head]
    exact splitName_stripNewline hhead _
  · -- a line without a line feed is the last one
    rw [List.map_eq_nil_iff.mp hnone, List.map_nil, List.flatten_nil, List.append_nil,
      Text.stripNewline_of_not_mem hfree, Text.cutLine_of_not_mem (not_mem_splitName hfree)]
    exact ⟨rfl, rfl⟩

/-- A block starts the command that its expression is, if that has a name. -/
theorem commandLines_lines (b : Block) (hcut : Stream.Cut (b.lines.map .text)) (n : Nat) :
    commandLines (n + 1) b.lines =
      ([b.expression n].filter (!·.isBlankLine)).map fun e => (e.line, e.name) := by
  have hcomments : ∀ l ∈ b.comments, startsCommand l = false := by
    intro l hl
    obtain ⟨rest, rfl⟩ := eq_cons_of_isComment (b.comments_start l hl)
    rfl
  cases hmain : b.main with
  | none =>
      rw [lines_of_none b hmain, commandLines_eq_nil hcomments, expression, hmain]
      rfl
  | some l =>
      have hcontinuation : ∀ l ∈ b.continuation, startsCommand l = false := by
        intro l hl
        obtain ⟨rest, rfl⟩ := eq_cons_of_isContinuation (b.continuation_start l hl)
        rfl
      have hname := (split_expression hmain hcut n).1
      have hline := b.line_expression hmain n
      rw [lines_of_main b hmain, commandLines_append, commandLines_eq_nil hcomments,
        List.nil_append, ← List.singleton_append, commandLines_append,
        commandLines_eq_nil hcontinuation, List.append_nil, commandLines_singleton]
      by_cases hempty : (b.expression n).name = []
      · have hblank : (b.expression n).isBlankLine = true := by
          rw [Expression.isBlankLine, hempty]
          rfl
        have hnone : lineCommand? l = none := if_neg fun hcommand => hcommand.2 (hname ▸ hempty)
        rw [hnone, List.filter_cons, hblank]
        rfl
      · have hnamed : (!(b.expression n).isBlankLine) = true := by
          simpa [Expression.isBlankLine] using hempty
        have hstarts := (b.main_start l hmain).startsCommand (hname ▸ hempty)
        have hsome : lineCommand? l = some (b.expression n).name :=
          lineCommand?_eq_some_iff.mpr ⟨hstarts, hname.symm, hempty⟩
        rw [hsome, List.filter_cons, if_pos hnamed, List.map_cons, hline, Nat.add_right_comm]
        rfl

/-- An expression stands below its comment lines, which start behind the lines before the block. -/
theorem line_expression_comment (b : Block) (hcut : Stream.Cut (b.lines.map .text)) (n : Nat) :
    (b.expression n).line = n + 1 + (b.expression n).comment.count '\n' := by
  rw [comment_expression]
  cases hmain : b.main with
  | some l =>
      rw [lines_of_main b hmain, List.map_append] at hcut
      rw [hcut.count_flatten (List.cons_ne_nil _ _), b.line_expression hmain]
      omega
  | none =>
      rw [lines_of_none b hmain] at hcut
      obtain hnil | ⟨most, last, hlast⟩ := List.eq_nil_or_concat b.comments
      · exact absurd hnil (b.comments_ne_nil hmain)
      · rw [List.concat_eq_append] at hlast
        rw [hlast, List.map_append] at hcut
        have hmost := hcut.count_flatten (List.cons_ne_nil _ _)
        have hline : (b.expression n).line = n + (most ++ [last]).length +
            if last.getLast? = some '\n' then 1 else 0 := by
          rw [expression, hmain, hlast, List.getLastD_concat]
        rw [hline, hlast, List.flatten_append, List.flatten_singleton, List.count_append, hmost,
          List.length_append, List.length_singleton]
        rcases hcut.suffix.1 last rfl with ⟨line, hfree, rfl⟩ | ⟨hfree, -⟩
        · rw [if_pos (by rw [List.getLast?_concat]), List.count_append,
            List.count_eq_zero.mpr hfree, List.count_singleton_self]
          omega
        · rw [if_neg fun hnewline => hfree (List.mem_of_getLast? hnewline),
            List.count_eq_zero.mpr hfree]
          omega

end Block

/-- The commands among expressions are those that the lines of their blocks start. -/
theorem Partition.commandLines_lines {n : Nat} {bs : List Block} {es : List Expression}
    (h : Partition n bs es) (hcut : Stream.Cut ((bs.flatMap Block.lines).map .text)) :
    commandLines (n + 1) (bs.flatMap Block.lines) =
      (es.filter (!·.isBlankLine)).map fun e => (e.line, e.name) := by
  induction h with
  | nil => rfl
  | @last n b hmain =>
      rw [List.flatMap_singleton] at hcut ⊢
      exact b.commandLines_lines hcut n
  | @cons n b bs es hmain hmore ih =>
      rw [List.flatMap_cons, List.map_append] at hcut
      rw [List.flatMap_cons, commandLines_append, b.commandLines_lines hcut.left,
        Nat.add_right_comm, ih hcut.suffix, ← List.map_append, ← List.filter_append,
        List.singleton_append]

/-- Reading meets the commands that the lines of a text start, up to an error. -/
theorem readAll_commandLines (t : Text) :
    let found := ((readAll (Stream.ofText t)).1.filter (!·.isBlankLine)).map
      fun e => (e.line, e.name)
    found <+: commandLines 1 (Text.physicalLines t) ∧
      ((readAll (Stream.ofText t)).2 = none → found = commandLines 1 (Text.physicalLines t)) := by
  intro found
  have hlines : ∀ l ∈ Text.physicalLines t, ∃ c rest, l = c :: rest ∧ (c = '\n' → rest = []) :=
    fun l hl => Text.piece_eq_cons hl
  obtain ⟨bs, behind, hbs, hpartition, hnone⟩ := readFrom_blocks (n := 0) hlines
  have hcut : Stream.Cut ((Text.physicalLines t).map .text) := Stream.cut_ofText t
  rw [← hbs, List.map_append] at hcut
  have hfound : commandLines 1 (bs.flatMap Block.lines) = found :=
    hpartition.commandLines_lines hcut.left
  rw [← hfound, ← hbs, commandLines_append]
  refine ⟨List.prefix_append _ _, fun hread => ?_⟩
  rw [hnone hread]
  exact (List.append_nil _).symm

/-- So it does in the text of a definition, with numbers that count on from the line of the
    definition. -/
theorem bodyCalls_inner {decl : Expression} {inner : Text}
    (hinner : (Text.cutLine decl.body).2.getD [] = inner) :
    bodyCalls decl <+: commandLines (decl.line + 1) (Text.physicalLines inner) ∧
      ∀ es, parse inner = .ok es →
        bodyCalls decl = commandLines (decl.line + 1) (Text.physicalLines inner) := by
  obtain ⟨hstart, hall⟩ := readAll_commandLines inner
  have hcalls : bodyCalls decl = (((readAll (Stream.ofText inner)).1.filter (!·.isBlankLine)).map
      fun e => (e.line, e.name)).map fun call => (decl.line + call.1, call.2) := by
    rw [List.map_map, ← hinner]
    rfl
  rw [hcalls, commandLines_add]
  refine ⟨hstart.map _, fun es hparse => ?_⟩
  rw [hall (congrArg Prod.snd (parse_eq_ok_iff.mp hparse))]

/-! ## What a text loses on the way -/

/-- Continuation lines, each with its tab. -/
theorem tabbed_tail {ls : List Text} (h : ∀ l ∈ ls, isContinuation l = true) :
    ls.map Line.text = tabbed (ls.map List.tail) := by
  rw [tabbed, List.map_map]
  refine List.map_congr_left fun l hl => ?_
  obtain ⟨rest, rfl⟩ := eq_cons_of_isContinuation (h l hl)
  rfl

/-- Cutting lines apart that were joined, of which the last has no line feed. -/
theorem commandLines_physicalLines (n : Nat) {ls : List Text} (hls : ∀ l ∈ ls, '\n' ∉ l)
    {l : Text} (hl : '\n' ∉ l) :
    commandLines n (Text.physicalLines ((Text.closed ls).flatten ++ l)) =
      commandLines n (Text.closed ls ++ [l]) := by
  rw [Text.physicalLines, Text.pieces_closed hls]
  by_cases hempty : l = []
  · rw [hempty, commandLines_append, commandLines_append]
    rfl
  · have hpieces := Text.pieces_append hempty hl []
    rw [List.append_nil] at hpieces
    rw [hpieces]
    rfl

/-- Continuation lines that are joined without their tabs and without the final line feed, and cut
    apart again, start the commands that they started before. -/
theorem commandLines_stripped (n : Nat) {ls : List Text} (hcut : Stream.Cut (tabbed ls)) :
    commandLines n (Text.physicalLines (Text.stripNewline ls.flatten)) = commandLines n ls := by
  rw [← List.append_nil (tabbed ls)] at hcut
  obtain ⟨ls₁, last, rfl, hls₁, hlast⟩ := hcut.tabbed
  by_cases hrest : last.flatten = []
  · have hblank : ∀ l ∈ last, startsCommand l = false := by
      intro l hl
      rw [List.flatten_eq_nil_iff.mp hrest l hl]
      rfl
    rw [List.flatten_append, hrest, List.append_nil, commandLines_append,
      commandLines_eq_nil hblank, List.append_nil]
    rcases List.eq_nil_or_concat ls₁ with rfl | ⟨most, l, rfl⟩
    · rfl
    · rw [List.concat_eq_append] at hls₁ ⊢
      have hl := hls₁ l (List.mem_append_right most List.mem_cons_self)
      have hmost := fun l hl => hls₁ l (List.mem_append_left _ hl)
      have hclosed : Text.closed (most ++ [l]) = Text.closed most ++ [l ++ ['\n']] :=
        List.map_append
      rw [flatten_closed_concat, Text.stripNewline_append, commandLines_physicalLines n hmost hl,
        hclosed, commandLines_append, commandLines_append, commandLines_singleton,
        commandLines_singleton, lineCommand?_append_newline hl]
  · obtain ⟨l, rfl, hl⟩ := hlast.resolve_left fun hnone => hrest (by rw [hnone]; rfl)
    rw [List.flatten_singleton] at hrest
    rw [List.flatten_append, List.flatten_singleton, Text.stripNewline_append_of_ne_nil _ hrest,
      Text.stripNewline_of_not_mem hl, commandLines_physicalLines n hls₁ hl]

/-! ## The lines of a definition -/

/-- Every command among expressions has a block, and the expressions behind it have the blocks
    behind that. -/
theorem Partition.exists_block {n : Nat} {bs : List Block} {es before behind : List Expression}
    {e : Expression} (h : Partition n bs es) (hes : es = before ++ e :: behind)
    (hname : e.name ≠ []) :
    ∃ bs₁ b l bs₂, bs = bs₁ ++ b :: bs₂ ∧ b.main = some l ∧
      e = b.expression (n + (bs₁.flatMap Block.lines).length) ∧
      Partition (n + (bs₁.flatMap Block.lines).length + b.lines.length) bs₂ behind := by
  induction h generalizing before with
  | nil =>
      have hmem : e ∈ ([] : List Expression) := hes ▸ List.mem_append_right _ List.mem_cons_self
      cases hmem
  | @last n b hmain =>
      -- comment lines alone have no name
      have hmem : e ∈ [b.expression n] := hes ▸ List.mem_append_right _ List.mem_cons_self
      rw [List.mem_singleton.mp hmem, Block.expression, hmain] at hname
      exact absurd rfl hname
  | @cons n b bs es hmain hmore ih =>
      cases before with
      | nil =>
          obtain ⟨rfl, rfl⟩ := List.cons.inj hes
          obtain ⟨l, hl⟩ := Option.ne_none_iff_exists'.mp hmain
          exact ⟨[], b, l, bs, rfl, hl, rfl, hmore⟩
      | cons e' before =>
          obtain ⟨bs₁, b', l, bs₂, rfl, hl, he, hbehind⟩ := ih (List.cons.inj hes).2
          refine ⟨b :: bs₁, b', l, bs₂, rfl, hl, ?_, ?_⟩
          · rw [List.flatMap_cons, List.length_append, ← Nat.add_assoc]
            exact he
          · rw [List.flatMap_cons, List.length_append, ← Nat.add_assoc]
            exact hbehind

/-- A continuation line below a number, by its own number. -/
theorem getElem?_of_continuationBelow {ls : List Text} {k i : Nat} {l : Text}
    (h : ((continuationBelow ls k).map List.tail)[i]? = some l) :
    ls[k + i]? = some ('\t' :: l) := by
  rw [List.getElem?_map] at h
  obtain ⟨full, hfull, rfl⟩ := Option.map_eq_some_iff.mp h
  have htab : isContinuation full = true :=
    List.all_eq_true.mp List.all_takeWhile full (List.mem_of_getElem? hfull)
  obtain ⟨rest, rfl⟩ := eq_cons_of_isContinuation htab
  obtain ⟨hi, hget⟩ := List.getElem?_eq_some_iff.mp hfull
  rw [← List.getElem?_drop, List.tail_cons, ← hget]
  exact List.prefix_iff_getElem?.mp (List.takeWhile_prefix isContinuation) i hi

section Definitions

variable {text : Text} {before behind : List Expression} {e next : Expression}

/-- The lines of a text around the block of a command. -/
theorem exists_block_of_parse (hparse : parse text = .ok (before ++ e :: behind))
    (hname : e.name ≠ []) :
    ∃ (above : List Text) (b : Block) (l : Text) (bs : List Block),
      Text.physicalLines text = above ++ (b.lines ++ bs.flatMap Block.lines) ∧
      b.main = some l ∧ e = b.expression above.length ∧
      Partition (above.length + b.lines.length) bs behind := by
  have hread : readFrom 0 ((Text.physicalLines text).map .text) = (before ++ e :: behind, none) :=
    parse_eq_ok_iff.mp hparse
  obtain ⟨bs, hbs, hpartition⟩ :=
    readFrom_partition (fun l hl => Text.piece_eq_cons hl) (congrArg Prod.snd hread)
  obtain ⟨bs₁, b, l, bs₂, rfl, hl, he, hbehind⟩ :=
    hpartition.exists_block (congrArg Prod.fst hread) hname
  rw [Nat.zero_add] at he hbehind
  rw [List.flatMap_append, List.flatMap_cons] at hbs
  exact ⟨bs₁.flatMap Block.lines, b, l, bs₂, hbs.symm, hl, he, hbehind⟩

/-- The continuation lines of a command reach to the lines of the next expression: its comment
    lines and then its own. -/
theorem line_next (hparse : parse text = .ok (before ++ e :: next :: behind))
    (hname : e.name ≠ []) :
    next.line = e.line + (continuationBelow (Text.physicalLines text) e.line).length + 1 +
        next.comment.count '\n' ∧
      Text.physicalLines next.comment <+:
        (Text.physicalLines text).drop (next.line - 1 - next.comment.count '\n') := by
  obtain ⟨above, b, l, bs, hlines, hl, rfl, hbehind⟩ := exists_block_of_parse hparse hname
  have hbelow := b.continuationBelow_lines hl above (Partition.head?_lines bs)
  have hline := b.line_expression hl above.length
  have hsize := b.length_lines hl
  have hcut : Stream.Cut ((Text.physicalLines text).map .text) := Stream.cut_ofText text
  obtain ⟨b', bs', rfl, hnext⟩ : ∃ b' bs', bs = b' :: bs' ∧
      next = b'.expression (above.length + b.lines.length) := by
    cases hbehind with
    | last hmain => exact ⟨_, [], rfl, rfl⟩
    | cons hmain hmore => exact ⟨_, _, rfl, rfl⟩
  rw [hlines, List.flatMap_cons, List.map_append, List.map_append, List.map_append] at hcut
  have hcut' := hcut.suffix.suffix.left
  have hline' := b'.line_expression_comment hcut' (above.length + b.lines.length)
  have hcomment := b'.comment_expression (above.length + b.lines.length)
  rw [← hnext] at hline' hcomment
  refine ⟨?_, ?_⟩
  · rw [hlines, hbelow]
    omega
  · have hdrop : next.line - 1 - next.comment.count '\n' = (above ++ b.lines).length := by
      rw [List.length_append]
      omega
    rw [hdrop, hlines, ← List.append_assoc, List.drop_left, hcomment, List.flatMap_cons,
      Block.lines, List.append_assoc]
    rw [Block.lines, List.map_append] at hcut'
    have hindent := hcut'.left.indent
    rw [← List.append_nil (tabbed b'.comments)] at hindent
    exact hindent.physicalLines_flatten.trans (List.prefix_append _ _)

/-- What is met in the text of a definition are the commands that its continuation lines start. -/
theorem bodyCalls_commandLines (hparse : parse text = .ok (before ++ e :: behind))
    (hname : e.name ≠ []) :
    let ls := (continuationBelow (Text.physicalLines text) e.line).map List.tail
    bodyCalls e <+: commandLines (e.line + 1) ls ∧
      ∀ inner, parse ((Text.cutLine e.body).2.getD []) = .ok inner →
        bodyCalls e = commandLines (e.line + 1) ls := by
  obtain ⟨above, b, l, bs, hlines, hl, rfl, -⟩ := exists_block_of_parse hparse hname
  have hcut : Stream.Cut ((Text.physicalLines text).map .text) := Stream.cut_ofText text
  rw [hlines, List.map_append, List.map_append] at hcut
  have hblock := hcut.suffix.left
  have hinner := (Block.split_expression hl hblock above.length).2
  rw [b.lines_of_main hl, List.map_append, List.map_cons] at hblock
  have hcontinuation : Stream.Cut (tabbed (b.continuation.map List.tail)) :=
    tabbed_tail b.continuation_start ▸ hblock.suffix.2
  have hcalls := bodyCalls_inner hinner
  rw [commandLines_stripped _ hcontinuation] at hcalls
  rw [hlines, b.continuationBelow_lines hl above (Partition.head?_lines bs), hinner]
  exact hcalls

end Definitions

/-- The commands in the text of a definition stand on physical lines. Let `text` parse, and let
    `decl` be one of its definitions. A command that is reported for its text stands below the line
    of `decl`, and above the next expression and the comment lines of that, which end directly above
    it. The line of that number in `text` is a tab and then a line that starts a command, and the
    name that is split off that line is the one that is reported. The numbers grow strictly. If the
    text of the definition parses, nothing is left out: what is reported are all commands that the
    continuation lines start without their tabs, each line once and in order. If it does not, these
    are reported up to some line. -/
theorem bodyCalls_physical {text : Text} {es : List Expression} (hparse : parse text = .ok es)
    {decl : Expression} (hdecl : decl ∈ es) (hdefine : decl.name = defineWord) :
    let lines := Text.physicalLines text
    let found := commandLines (decl.line + 1) ((continuationBelow lines decl.line).map List.tail)
    (∀ line call, (line, call) ∈ bodyCalls decl →
      decl.line < line ∧
      (∀ before next behind, es = before ++ decl :: next :: behind →
        line < next.line - next.comment.count '\n' ∧
        Text.physicalLines next.comment <+:
          lines.drop (next.line - 1 - next.comment.count '\n')) ∧
      ∃ l, lines[line - 1]? = some ('\t' :: l) ∧ startsCommand l = true ∧
        (splitName (Text.stripNewline l)).1 = call ∧ call ≠ []) ∧
    (bodyCalls decl).Pairwise (·.1 < ·.1) ∧
    bodyCalls decl <+: found ∧
    ∀ inner, parse ((Text.cutLine decl.body).2.getD []) = .ok inner → bodyCalls decl = found := by
  intro lines found
  have hname : decl.name ≠ [] := by
    rw [hdefine]
    exact List.cons_ne_nil _ _
  obtain ⟨before, behind, rfl⟩ := List.append_of_mem hdecl
  obtain ⟨hstart, hall⟩ := bodyCalls_commandLines hparse hname
  refine ⟨fun line call hcall => ?_, bodyCalls_increasing decl, hstart, hall⟩
  obtain ⟨i, l, hl, rfl, hcommand⟩ := mem_commandLines_iff.mp (hstart.subset hcall)
  obtain ⟨hi, -⟩ := List.getElem?_eq_some_iff.mp hl
  rw [List.length_map] at hi
  refine ⟨by omega, fun before' next behind' hes => ?_, l, ?_, lineCommand?_eq_some_iff.mp hcommand⟩
  · rw [hes] at hparse
    obtain ⟨hnext, hcomment⟩ := line_next hparse hname
    exact ⟨by omega, hcomment⟩
  · rw [show decl.line + 1 + i - 1 = decl.line + i by omega]
    exact getElem?_of_continuationBelow hl

/-- A definition with a blank line, a comment and a nested continuation line in its text, and behind
    it a command with a comment. -/
theorem bodyCalls_physical_nested :
    let text := ("# top\ndefine a x\n\tsay $x\n\t\n\t# note\n\tdo\n\t\tmore\n\tlast\n" ++
      "# next\ngo\n").toList
    let decl : Expression := ⟨2, "# top\n".toList, defineWord,
      "a x\nsay $x\n\n# note\ndo\n\tmore\nlast".toList⟩
    let next : Expression := ⟨10, "# next\n".toList, "go".toList, []⟩
    (parse text = .ok [decl, next] ∧
      bodyCalls decl = [(3, "say".toList), (6, "do".toList), (8, "last".toList)]) ∧
    8 < next.line - next.comment.count '\n' ∧
    (∃ l, (Text.physicalLines text)[7]? = some ('\t' :: l) ∧
      (splitName (Text.stripNewline l)).1 = "last".toList) ∧
    bodyCalls decl = commandLines 3
      ((continuationBelow (Text.physicalLines text) 2).map List.tail) := by
  intro text decl next
  have hparse : parse text = .ok [decl, next] := parse_eq_ok_iff.mpr (by decide +kernel)
  have hcalls : bodyCalls decl = [(3, "say".toList), (6, "do".toList), (8, "last".toList)] := by
    decide +kernel
  have hinner : parse ((Text.cutLine decl.body).2.getD []) =
      .ok [⟨1, [], "say".toList, "$x".toList⟩, ⟨2, [], [], []⟩,
        ⟨4, "# note\n".toList, "do".toList, "\nmore".toList⟩, ⟨6, [], "last".toList, []⟩] :=
    parse_eq_ok_iff.mpr (by decide +kernel)
  obtain ⟨hlines, -, -, hall⟩ := bodyCalls_physical hparse List.mem_cons_self rfl
  obtain ⟨-, hnext, l, hl, -, hname, -⟩ := hlines 8 "last".toList (by rw [hcalls]; simp)
  exact ⟨⟨hparse, hcalls⟩, (hnext [] next [] rfl).1, ⟨l, hl, hname⟩, hall _ hinner⟩

end LineScript
