import LineScript.Command.Run
import LineScript.Proofs.Irreducible
import LineScript.Proofs.Spelling

/-!
# Results that are printed and read again

No result is named `define`, but what is printed of a result can still be read as a definition. A
call puts its arguments into names, an argument may have blanks and line feeds, and a reader of the
page takes only the first word of a line for the name. So a definition is met where a line of a name
has `define` for its first word and more than that.

* `Expression.exists_name_of_mem_readAll`: a command that is read from printed expressions has its
  name from a line of one of their names.
* `Expression.defines_toSource`: a name on one line that is read as a definition.
* `Expander.definitions_reprinted`: what this means for runs and for what they print.
-/

namespace LineScript

/-- A reader of the text meets a definition. -/
def Defines (t : Text) : Prop := ∃ d ∈ (readAll (Stream.ofText t)).1, d.name = defineWord

/-! ## Names on a page -/

/-- A text that starts with a name starts with none of the characters that end one. -/
theorem start_of_splitName {c : Char} {t : Text} (h : (splitName (c :: t)).1 ≠ []) :
    c ≠ ' ' ∧ c ≠ '\t' ∧ c ≠ '\n' := by
  refine ⟨?_, ?_, ?_⟩
  all_goals
    rintro rfl
    exact h rfl

/-- What is printed behind a name does not change the first word. -/
theorem splitName_append_fst (l : Text) {tail : Text}
    (htail : ∀ c ∈ tail.head?, c = ' ' ∨ c = '\n') :
    (splitName (l ++ tail)).1 = (splitName l).1 := by
  cases tail with
  | nil => rw [List.append_nil]
  | cons c tail =>
      simp only [splitName]
      rw [takeWhile_append_cons]
      rcases htail c rfl with rfl | rfl
      · decide
      · decide

/-- A command has the name that stands on one of the lines. -/
theorem exists_line_of_mem_readAll {t : Text} {d : Expression}
    (hd : d ∈ (readAll (Stream.ofText t)).1) (hname : d.name ≠ []) :
    ∃ l ∈ Text.physicalLines t, d.name = (splitName (Text.stripNewline l)).1 := by
  obtain ⟨head, -, hsplit, -, ⟨l, hl, rfl⟩, -⟩ := readAll_lines hd hname
  exact ⟨l, List.mem_of_getElem? hl, hsplit⟩

namespace Text

/-- The first part of a text starts as the text does. -/
theorem head?_of_splitOn {t l : Text} {ls : List Text} (h : t.splitOn '\n' = l :: ls) :
    ∀ c ∈ l.head?, t.head? = some c ∧ c ≠ '\n' := by
  cases t with
  | nil =>
      obtain ⟨rfl, -⟩ := List.cons.inj (show [[]] = l :: ls from h)
      exact fun c hc => by cases hc
  | cons d t =>
      by_cases hd : d = '\n'
      · rw [hd, splitOn_newline] at h
        rw [← (List.cons.inj h).1]
        exact fun c hc => by cases hc
      · obtain ⟨l', ls', hsplit⟩ := List.exists_cons_of_ne_nil (List.splitOn_ne_nil '\n' t)
        rw [splitOn_cons_of_ne hd hsplit] at h
        rw [← (List.cons.inj h).1]
        intro c hc
        obtain rfl := Option.some.inj hc
        exact ⟨rfl, hd⟩

end Text

namespace Expression

/-- The lines on which an expression is printed: every name on them is that on a line of the name
    of the expression. -/
theorem toSource_lines (e : Expression) :
    ∃ ls, e.toSource = (Text.closed ls).flatten ∧ (∀ l ∈ ls, '\n' ∉ l) ∧
      ∀ l ∈ ls, (splitName l).1 ≠ [] →
        ∃ n ∈ e.name.splitOn '\n', (splitName l).1 = (splitName n).1 := by
  obtain ⟨ns, last, hname⟩ :=
    (List.eq_nil_or_concat (e.name.splitOn '\n')).resolve_left
      (List.splitOn_ne_nil '\n' e.name)
  obtain ⟨first, ls, htail⟩ :=
    List.exists_cons_of_ne_nil (List.splitOn_ne_nil '\n' (printedTail e.body))
  rw [List.concat_eq_append] at hname
  have hfree := Text.not_mem_of_mem_splitOn e.name
  have hfree' := Text.not_mem_of_mem_splitOn (printedTail e.body)
  rw [hname, List.forall_mem_append] at hfree
  rw [htail, List.forall_mem_cons] at hfree'
  -- the last line of the name goes on with the first line of what is printed behind it
  refine ⟨ns ++ (last ++ first) :: ls.map ('\t' :: ·), ?_, ?_, ?_⟩
  · have hclosed := Text.closed_splitOn e.name
    rw [hname, Text.closed, List.map_append, List.flatten_append] at hclosed
    have hsame : (Text.closed ns).flatten ++ last ++ ['\n'] = e.name ++ ['\n'] := by
      rw [← hclosed, List.append_assoc]
      exact congrArg _ (List.append_nil _).symm
    rw [toSource_eq, ← List.append_cancel_right hsame, List.append_assoc,
      Text.indented_eq_closed htail]
    simp [Text.closed]
  · refine List.forall_mem_append.mpr ⟨hfree.1, List.forall_mem_cons.mpr ⟨?_, ?_⟩⟩
    · intro hmem
      exact (List.mem_append.mp hmem).elim (hfree.2 last List.mem_cons_self) hfree'.1
    · intro l hl
      obtain ⟨l', hl', rfl⟩ := List.mem_map.mp hl
      intro hmem
      exact hfree'.2 l' hl' ((List.mem_cons.mp hmem).resolve_left (by decide))
  · intro l hl hne
    rcases List.mem_append.mp hl with hl | hl
    · exact ⟨l, by rw [hname]; exact List.mem_append_left _ hl, rfl⟩
    rcases List.mem_cons.mp hl with rfl | hl
    · refine ⟨last, by rw [hname]; exact List.mem_append_right _ List.mem_cons_self, ?_⟩
      refine splitName_append_fst last fun c hc => ?_
      obtain ⟨hhead, -⟩ := Text.head?_of_splitOn htail c hc
      exact head?_printedTail e.body c hhead
    · obtain ⟨l', -, rfl⟩ := List.mem_map.mp hl
      exact absurd rfl (start_of_splitName hne).2.1

theorem flatMap_toSource_lines (es : List Expression) :
    ∃ ls, es.flatMap toSource = (Text.closed ls).flatten ∧ (∀ l ∈ ls, '\n' ∉ l) ∧
      ∀ l ∈ ls, (splitName l).1 ≠ [] →
        ∃ e ∈ es, ∃ n ∈ e.name.splitOn '\n', (splitName l).1 = (splitName n).1 := by
  induction es with
  | nil =>
      refine ⟨[], rfl, ?_, ?_⟩
      · exact fun l hl => absurd hl List.not_mem_nil
      · exact fun l hl => absurd hl List.not_mem_nil
  | cons e es ih =>
      obtain ⟨ls, hsource, hfree, hnames⟩ := e.toSource_lines
      obtain ⟨more, hsources, hfrees, hothers⟩ := ih
      refine ⟨ls ++ more, ?_, List.forall_mem_append.mpr ⟨hfree, hfrees⟩, ?_⟩
      · rw [List.flatMap_cons, hsource, hsources, Text.closed, Text.closed, Text.closed,
          List.map_append, List.flatten_append]
      · intro l hl hne
        rcases List.mem_append.mp hl with hl | hl
        · exact ⟨e, List.mem_cons_self, hnames l hl hne⟩
        · obtain ⟨e', he', hname⟩ := hothers l hl hne
          exact ⟨e', List.mem_cons_of_mem e he', hname⟩

/-- A command that is read from printed expressions has its name from a line of one of their
    names. -/
theorem exists_name_of_mem_readAll {es : List Expression} {d : Expression}
    (hd : d ∈ (readAll (Stream.ofText (es.flatMap toSource))).1) (hname : d.name ≠ []) :
    ∃ e ∈ es, ∃ n ∈ e.name.splitOn '\n', d.name = (splitName n).1 := by
  obtain ⟨ls, hsource, hfree, hnames⟩ := flatMap_toSource_lines es
  obtain ⟨l, hl, hsplit⟩ := exists_line_of_mem_readAll hd hname
  have hpieces : Text.physicalLines (es.flatMap toSource) = Text.closed ls := by
    have happend := Text.pieces_closed hfree []
    rw [List.append_nil] at happend
    rw [hsource, Text.physicalLines, happend]
    exact List.append_nil _
  rw [hpieces] at hl
  obtain ⟨l', hl', rfl⟩ := List.mem_map.mp hl
  rw [Text.stripNewline_append] at hsplit
  obtain ⟨e, he, n, hn, hsame⟩ := hnames l' hl' (hsplit ▸ hname)
  exact ⟨e, he, n, hn, hsplit.trans hsame⟩

/-- A name as reading leaves it is the only name on its page. -/
theorem ReadName.splitName_eq {name n : Text} (h : ReadName name)
    (hn : n ∈ name.splitOn '\n') : (splitName n).1 = name := by
  have hnewline : '\n' ∉ name := fun hmem => (h.chars _ hmem).2.2 rfl
  rw [List.splitOn_eq_singleton hnewline] at hn
  obtain rfl := List.mem_singleton.mp hn
  have hsplit : splitName (n ++ []) = (n, []) := splitName_append h fun c hc => by cases hc
  rw [List.append_nil] at hsplit
  rw [hsplit]

/-- An expression whose name has the word `define` first is read as a definition. -/
theorem defines_toSource {e : Expression} (hnewline : '\n' ∉ e.name)
    (h : (splitName e.name).1 = defineWord) : Defines e.toSource := by
  obtain ⟨before, gap, hlayout, hbefore, -, -⟩ := splitName_layout hnewline
  obtain ⟨c, name, hcons⟩ : ∃ c name, e.name = c :: name := by
    refine List.exists_cons_of_ne_nil fun hnil => ?_
    rw [hnil] at h
    cases h
  obtain ⟨hspace, htab, hfeed⟩ : c ≠ ' ' ∧ c ≠ '\t' ∧ c ≠ '\n' := by
    refine start_of_splitName (t := name) ?_
    rw [← hcons, h]
    exact List.cons_ne_nil _ _
  -- the word stands first, or behind blanks, so the line is no comment
  have hsharp : c ≠ '#' := by
    rintro rfl
    rw [h, hcons] at hlayout
    cases before with
    | nil => cases (List.cons.inj hlayout).1
    | cons b before =>
        have hblank := hbefore b List.mem_cons_self
        rw [← (List.cons.inj hlayout).1] at hblank
        cases hblank
  have hsource : e.toSource =
      Text.indented (c :: (name ++ printedTail e.body)) ++ ['\n'] ++ [] := by
    rw [List.append_nil, ← List.cons_append, ← hcons, Text.indented_append hnewline]
    rfl
  have hread := @readExpression_indented 0 [] c (name ++ printedTail e.body) [] hfeed hsharp hspace
    htab (by simp)
  refine ⟨.ofText 1 [] ((c :: (name ++ printedTail e.body)) ++ ['\n']), ?_, ?_⟩
  · rw [readAll, readFrom_eq, hsource, hread]
    exact List.mem_cons_self
  · show (splitName (Text.stripNewline _)).1 = _
    rw [Text.stripNewline_append, ← List.cons_append, ← hcons,
      splitName_append_fst _ (head?_printedTail e.body), h]

end Expression

namespace Expanded

/-- A result of a call that hides a definition: it is not named `define`, but on a line of its name
    that is the first word. -/
def HidesDefinition (e : Expanded) : Prop :=
  e.stack ≠ [] ∧ e.name ≠ defineWord ∧
    ∃ n ∈ e.name.splitOn '\n', (splitName n).1 = defineWord

end Expanded

namespace Expander

variable {fs : FileSystem} {o : Options} {script : Text} {z : Expander} {e : Expanded}

/-- What waits is not named `define`, and a command of a file has a name as reading leaves it. -/
theorem name_of_mem_pending (hz : Visits (start fs o script) z) (he : e ∈ z.pending) :
    e.name ≠ defineWord ∧ (e.stack = [] → Expression.ReadName e.name) := by
  have hnone : ∀ e ∈ (start fs o script).pending,
      (start fs o script).templates.Irreducible e := by
    rw [pending_start]
    exact fun e he => absurd he List.not_mem_nil
  refine ⟨(hz.irreducible (orderly_start fs o script) (sound_start fs o script) hnone e he).plain,
    ?_⟩
  intro hdirect
  have hfaithful := hz.faithful (orderly_start fs o script) (faithful_start fs o script)
  obtain ⟨f, ⟨-, -, x, name, stream, raw, -, -, -, hraw, rfl⟩, htruthful⟩ :=
    hfaithful.waiting e he
  rw [htruthful.direct.mp hdirect]
  exact Expression.readName_of_mem_readFrom 0 stream raw hraw

/-- What a run gives until its end waits at some moment. -/
theorem Visits.of_mem_drain {x₀ x : Expander} (h : Visits x₀ x) (he : e ∈ x.drain.1) :
    ∃ z, Visits x₀ z ∧ e ∈ z.pending := by
  fun_induction drain x with
  | case1 x y hread => cases he
  | case2 x error y hread => cases he
  | case3 x first y hread es error z hdrain ih =>
      rcases List.mem_cons.mp he with rfl | he
      · obtain ⟨z, pending, hz, hpending, -⟩ := h.exists_of_read_some hread
        exact ⟨z, hz, hpending ▸ List.mem_cons_self⟩
      · have hy := h.read
        rw [hread] at hy
        rw [hdrain] at ih
        exact ih hy he

/-- Printed results that are read as a definition have one that hides it. -/
theorem exists_hidesDefinition (es : List Expanded)
    (hes : ∀ e ∈ es, ∃ z, Visits (start fs o script) z ∧ e ∈ z.pending)
    (h : Defines (es.flatMap (·.toSource))) : ∃ e ∈ es, e.HidesDefinition := by
  obtain ⟨d, hd, hdefine⟩ := h
  have hsame : es.flatMap (·.toSource) = (es.map (·.toExpression)).flatMap Expression.toSource := by
    rw [List.flatMap_map]
  rw [hsame] at hd
  obtain ⟨e', he', n, hn, hname⟩ := Expression.exists_name_of_mem_readAll hd
    (by rw [hdefine]; exact List.cons_ne_nil _ _)
  obtain ⟨e, he, rfl⟩ := List.mem_map.mp he'
  obtain ⟨z, hz, hpending⟩ := hes e he
  obtain ⟨hplain, hread⟩ := name_of_mem_pending hz hpending
  have hfirst : (splitName n).1 = defineWord := hname.symm.trans hdefine
  refine ⟨e, he, ?_, hplain, n, hn, hfirst⟩
  intro hdirect
  exact hplain (((hread hdirect).splitName_eq hn).symm.trans hfirst)

theorem exists_hidesDefinition_expandScript
    (h : Defines ((expandScript fs o script).1.flatMap (·.toSource))) :
    ∃ e ∈ (expandScript fs o script).1, e.HidesDefinition := by
  have hstart : Visits (start fs o script) (start fs o script) := .start
  exact exists_hidesDefinition _ (fun e he => hstart.of_mem_drain he) h

/-- What the command `expand` prints is its results, one after another, in colour or not. -/
theorem render_run_expand {i : Invocation} (hverb : i.verb = .expand) (hjson : i.json = false)
    (t : Tree) (colored : Bool) :
    Output.render colored (i.run t).output =
      (expandScript (i.fileSystem t) i.options i.operand).1.flatMap (·.toSource) := by
  have hprinted : (fun e : Expanded => (e.printed false).flatMap (Output.renderPiece colored)) =
      (·.toSource) := funext fun e => List.append_nil _
  rw [Invocation.run, hverb, hjson]
  show List.flatMap _ (List.flatMap _ _) = _
  rw [List.flatMap_assoc, hprinted]
  rfl

/-- When printed results are read as definitions. For every file system, setting and script, after
    any actions of the user: if what is printed of an expression that is read is read again and a
    definition is met, then a call gave the expression, and its name is not `define` but has a line
    of which that is the first word; and for a name on one line that is the only condition. If a
    definition is met in all that a run prints, or in what the command `expand` prints, then there
    is such an expression among the results. So nothing but a name with a blank or a line feed in
    it, made by a call, is read as a definition. -/
theorem definitions_reprinted (fs : FileSystem) (o : Options) (script : Text) :
    (∀ actions e y, ((start fs o script).perform actions).read = (.ok (some e), y) →
      (Defines e.toSource → e.HidesDefinition) ∧
      ('\n' ∉ e.name → (Defines e.toSource ↔ (splitName e.name).1 = defineWord))) ∧
    (Defines ((expandScript fs o script).1.flatMap (·.toSource)) →
      ∃ e ∈ (expandScript fs o script).1, e.HidesDefinition) ∧
    ∀ (i : Invocation) (t : Tree) (colored : Bool), i.verb = .expand → i.json = false →
      Defines (Output.render colored (i.run t).output) →
      ∃ e ∈ (expandScript (i.fileSystem t) i.options i.operand).1, e.HidesDefinition := by
  refine ⟨?_, exists_hidesDefinition_expandScript, ?_⟩
  · intro actions e y hread
    obtain ⟨z, pending, hz, hpending, -⟩ :=
      (visits_perform (start fs o script) actions).exists_of_read_some hread
    have hwaits : e ∈ z.pending := hpending ▸ List.mem_cons_self
    have hhides : Defines e.toSource → e.HidesDefinition := by
      intro hdefines
      have hsingle : [e].flatMap (·.toSource) = e.toSource := List.append_nil _
      obtain ⟨e', he', hhides⟩ := exists_hidesDefinition [e]
        (fun e' he' => ⟨z, hz, List.mem_singleton.mp he' ▸ hwaits⟩) (hsingle ▸ hdefines)
      exact List.mem_singleton.mp he' ▸ hhides
    refine ⟨hhides, fun hnewline => ⟨?_, Expression.defines_toSource hnewline⟩⟩
    intro hdefines
    obtain ⟨-, -, n, hn, hfirst⟩ := hhides hdefines
    rw [List.splitOn_eq_singleton hnewline] at hn
    exact List.mem_singleton.mp hn ▸ hfirst
  · intro i t colored hverb hjson hdefines
    rw [render_run_expand hverb hjson t colored] at hdefines
    exact exists_hidesDefinition_expandScript hdefines

/-- The whole line of a template comes from its argument, and is printed as a definition. -/
theorem definitions_reprinted_sneaky :
    let script := "define emit x\n\t$x\nemit define sneaky\n".toList
    let fs := FileSystem.ofList [("s".toList, .ok (.ofText script))]
    let x := (start fs {} "s".toList).perform []
    ∃ e y, x.read = (.ok (some e), y) ∧ e.name = "define sneaky".toList ∧
      e.toSource = "define sneaky\n".toList ∧ Defines e.toSource ∧ e.HidesDefinition := by
  intro script fs x
  let site : Expanded :=
    { line := 3, name := "emit".toList, body := "define sneaky".toList, file := "s".toList }
  let e : Expanded :=
    { line := 1, name := "define sneaky".toList, body := [], file := "s".toList, stack := [site] }
  have hgiven : x.read.1.toOption = some (some e) := by decide +kernel
  have hread : x.read = (.ok (some e), x.read.2) := Prod.ext (eq_ok_of_toOption hgiven) rfl
  obtain ⟨hhides, hexact⟩ := (definitions_reprinted fs {} "s".toList).1 [] e x.read.2 hread
  have hdefines : Defines e.toSource := (hexact (by decide)).mpr (by decide)
  exact ⟨e, x.read.2, hread, rfl, by decide, hdefines, hhides hdefines⟩

end Expander

end LineScript
