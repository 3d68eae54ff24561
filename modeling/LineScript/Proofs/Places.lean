import LineScript.Proofs.Chains
import LineScript.Proofs.Faults
import LineScript.Proofs.Registering
import LineScript.Proofs.Rereading

/-!
# Where a malformed line is

A line that breaks the line grammar is reported by file and number, and both come from the reader
that met it. A reader of a file counts the lines of the file. The text of a template is read again
for every call, by a reader that counts the lines of the text, and its number is reported as it is,
next to the name of the file: it is too small by the line of the definition.

* `readFrom_command`: the physical lines of a command.
* `Template.lines_ofDefinition`: the lines of a template's text are the continuation lines of its
  definition.
* `evalExpressions_located`: an evaluation that a malformed line stops, file by file.
* `Expander.drain_malformed`: where the line is, in a file or in the text of a template.
-/

namespace LineScript

/-! ## The physical lines of a command -/

/-- Continuation lines as they stand in a file. -/
def tabbed (ls : List Text) : Stream := ls.map fun l => .text ('\t' :: l)

/-- What continues a command are lines behind a tab. -/
theorem readContinuation_tabbed {n : Nat} {s : Stream} {tail : Text}
    (h : (readContinuation n s).result = .ok tail) :
    ∃ ls, s = tabbed ls ++ (readContinuation n s).ahead ∧ tail = ls.flatten ∧
      (readContinuation n s).line = n + ls.length := by
  induction s generalizing n tail with
  | nil =>
      obtain rfl := Except.ok.inj h
      exact ⟨[], rfl, rfl, rfl⟩
  | cons l ahead ih =>
      rw [readContinuation] at h ⊢
      split at h
      · cases h
      · obtain rfl := Except.ok.inj h
        exact ⟨[], rfl, rfl, rfl⟩
      · rename_i htab
        cases l with
        | text chars =>
            have hhead : chars.head? = some '\t' := by
              simpa [Line.startsWithTab] using Except.ok.inj htab
            obtain ⟨first, rfl⟩ := List.head?_eq_some_iff.mp hhead
            simp only [Line.read] at h ⊢
            cases hmore : (readContinuation (n + 1) ahead).result with
            | error error =>
                rw [hmore] at h
                cases h
            | ok more =>
                rw [hmore] at h
                obtain ⟨ls, hls, rfl, hline⟩ := ih hmore
                refine ⟨first :: ls, congrArg (Line.text ('\t' :: first) :: ·) hls,
                  (Except.ok.inj h).symm, ?_⟩
                rw [hline, List.length_cons]
                omega
        | undecodable tab => cases h
        | broken tab error => cases h
        | failure error => cases h

/-- The lines `taken` off a stream behind `n` lines are those of the expression `e`: if it is a
    command, then comment lines, its own line and its continuation lines. -/
def TakenFor (n : Nat) (taken : Stream) (e : Expression) : Prop :=
  e.name ≠ [] → ∃ before first ls comment,
    taken = before ++ .text first :: tabbed ls ∧ e.line = n + before.length + 1 ∧
      e = .ofText e.line comment (first ++ ls.flatten)

theorem readExpression_taken {n : Nat} {comment : Text} {s : Stream} {e : Expression}
    (h : (readExpression n comment s).result = .ok (some e)) :
    ∃ taken, s = taken ++ (readExpression n comment s).ahead ∧ TakenFor n taken e ∧
      ((readExpression n comment s).ahead ≠ [] →
        (readExpression n comment s).line = n + taken.length) := by
  induction s generalizing n comment with
  | nil =>
      rw [readExpression] at h ⊢
      split at h
      · cases h
      · rename_i hcomment
        rw [if_neg hcomment]
        obtain rfl := Option.some.inj (Except.ok.inj h)
        exact ⟨[], rfl, fun hname => absurd rfl hname, fun hahead => absurd rfl hahead⟩
  | cons l ahead ih =>
      cases l with
      | text chars =>
          rw [readExpression] at h ⊢
          simp only [Line.read] at h ⊢
          split at h
          · obtain rfl := Option.some.inj (Except.ok.inj h)
            exact ⟨[.text chars], rfl, fun hname => absurd rfl hname, fun _ => rfl⟩
          · obtain ⟨taken, hs, htaken, hline⟩ := ih h
            refine ⟨.text chars :: taken, congrArg (Line.text chars :: ·) hs, fun hname => ?_,
              fun hahead => ?_⟩
            · obtain ⟨before, first, ls, comment', rfl, hnumber, he⟩ := htaken hname
              refine ⟨.text chars :: before, first, ls, comment', rfl, ?_, he⟩
              rw [hnumber, List.length_cons]
              omega
            · rw [hline hahead, List.length_cons]
              omega
          · cases h
          · cases h
          · cases hmore : (readContinuation (n + 1) ahead).result with
            | error error =>
                rw [hmore] at h
                cases h
            | ok tail =>
                rw [hmore] at h
                obtain rfl := Option.some.inj (Except.ok.inj h)
                obtain ⟨ls, hls, rfl, hline⟩ := readContinuation_tabbed hmore
                refine ⟨.text chars :: tabbed ls, congrArg (Line.text chars :: ·) hls,
                  fun _ => ⟨[], chars, ls, comment, rfl, rfl, rfl⟩, fun _ => ?_⟩
                rw [hline, List.length_cons, tabbed, List.length_map]
                omega
      | undecodable tab => cases h
      | broken tab error => cases h
      | failure error => cases h

/-- A command stands in a stream at its number: its own line, and its continuation lines below. -/
theorem readFrom_command {n : Nat} {s : Stream} {e : Expression} (he : e ∈ (readFrom n s).1)
    (hname : e.name ≠ []) :
    ∃ before first ls comment behind,
      s = before ++ (.text first :: tabbed ls ++ behind) ∧ e.line = n + before.length + 1 ∧
        e = .ofText e.line comment (first ++ ls.flatten) := by
  fun_induction readFrom n s with
  | case1 n => cases he
  | case2 n l rest step error hread => cases he
  | case3 n l rest step hread => cases he
  | case4 n l rest step e' hread more ih =>
      obtain ⟨taken, hs, htaken, hline⟩ := readExpression_taken hread
      rcases List.mem_cons.mp he with rfl | he
      · obtain ⟨before, first, ls, comment, rfl, hnumber, htext⟩ := htaken hname
        refine ⟨before, first, ls, comment, step.ahead, ?_, hnumber, htext⟩
        rw [hs, List.append_assoc]
      · have hahead : step.ahead ≠ [] := by
          intro hnone
          have hmore : e ∈ (readFrom step.line step.ahead).1 := he
          rw [hnone, readFrom] at hmore
          cases hmore
        obtain ⟨before, first, ls, comment, behind, hrest, hnumber, htext⟩ := ih he
        refine ⟨taken ++ before, first, ls, comment, behind, ?_, ?_, htext⟩
        · rw [hs, hrest, List.append_assoc]
        · rw [hnumber, hline hahead, List.length_append]
          omega

/-! ## Lines of bytes -/

/-- Encoding keeps line feeds. -/
theorem newlineByte_mem_encodeUtf8 {t : Text} : newlineByte ∈ encodeUtf8 t ↔ '\n' ∈ t := by
  rw [encodeUtf8, List.mem_flatMap]
  constructor
  · rintro ⟨c, hc, hbyte⟩
    by_cases hnewline : c = '\n'
    · exact hnewline ▸ hc
    · exact absurd hbyte (newlineByte_not_mem_utf8EncodeChar hnewline)
  · intro h
    exact ⟨'\n', h, List.mem_singleton.mpr rfl⟩

/-- Bytes with their only line feed at the end are the encoding of such text, if of any. -/
theorem closed_of_encodeUtf8 {a : Bytes} {t : Text} (hfree : newlineByte ∉ a)
    (h : a ++ [newlineByte] = encodeUtf8 t) : ∃ l, '\n' ∉ l ∧ t = l ++ ['\n'] := by
  have hnewline : '\n' ∈ t := by
    rw [← newlineByte_mem_encodeUtf8, ← h]
    exact List.mem_append_right a List.mem_cons_self
  obtain ⟨l, rest, rfl, hl⟩ := List.eq_append_cons_of_mem hnewline
  have hencode : encodeUtf8 (l ++ '\n' :: rest) =
      encodeUtf8 l ++ newlineByte :: encodeUtf8 rest := by
    rw [encodeUtf8, List.flatMap_append, List.flatMap_cons]
    rfl
  have hpieces := congrArg (Text.pieces newlineByte) (h.trans hencode)
  rw [Text.pieces_append_sep hfree, Text.pieces_append_sep (mt newlineByte_mem_encodeUtf8.mp hl)]
    at hpieces
  refine ⟨l, hl, ?_⟩
  cases rest with
  | nil => rfl
  | cons c rest =>
      -- another character behind the line feed would be another line
      obtain ⟨b, bs, hb⟩ : ∃ b bs, encodeUtf8 (c :: rest) = b :: bs :=
        List.exists_cons_of_ne_nil fun hnone =>
          String.utf8EncodeChar_ne_nil (List.append_eq_nil_iff.mp hnone).1
      obtain ⟨p, ps, hmore⟩ := Text.pieces_cons newlineByte b bs
      rw [hb, hmore] at hpieces
      cases (List.cons.inj hpieces).2

/-- A stream as cutting makes it: a line of text ends at its only line feed, and only the last line
    may have none. -/
def Stream.Cut : Stream → Prop
  | [] => True
  | l :: rest =>
      (∀ chars, l = .text chars →
        (∃ line, '\n' ∉ line ∧ chars = line ++ ['\n']) ∨ ('\n' ∉ chars ∧ rest = [])) ∧
      Cut rest

theorem Stream.cut_ofBytes (bytes : Bytes) (ending : Option AccessError) :
    (Stream.ofBytes bytes ending).Cut := by
  by_cases hnewline : newlineByte ∈ bytes
  · obtain ⟨a, b, rfl, hfree⟩ := List.eq_append_cons_of_mem hnewline
    rw [ofBytes_append_newline hfree]
    refine ⟨fun chars hchars => .inl ?_, cut_ofBytes b ending⟩
    exact closed_of_encodeUtf8 hfree (Line.ofBytes_eq_text_iff.mp hchars)
  · by_cases hempty : bytes = []
    · subst hempty
      cases ending with
      | none => trivial
      | some error => exact ⟨fun chars hchars => (by cases hchars), trivial⟩
    · cases ending with
      | some error =>
          rw [ofBytes_broken hempty hnewline]
          exact ⟨fun chars hchars => (by cases hchars), trivial⟩
      | none =>
          have hpieces := Text.pieces_append hempty hnewline []
          rw [List.append_nil] at hpieces
          simp only [ofBytes, hpieces]
          refine ⟨fun chars hchars => .inr ⟨?_, rfl⟩, trivial⟩
          have hbytes : bytes = encodeUtf8 chars := Line.ofBytes_eq_text_iff.mp hchars
          rw [hbytes] at hnewline
          exact mt newlineByte_mem_encodeUtf8.mpr hnewline
termination_by bytes.length
decreasing_by
  simp only [*, List.length_append, List.length_cons]
  omega

theorem Stream.Cut.suffix {before rest : Stream} (h : Stream.Cut (before ++ rest)) :
    Stream.Cut rest := by
  induction before with
  | nil => exact h
  | cons l before ih => exact ih h.2

/-- Continuation lines without their tabs end with a line feed, but for the last. -/
theorem Stream.Cut.tabbed {ls : List Text} {behind : Stream}
    (h : Stream.Cut (tabbed ls ++ behind)) :
    ∃ ls₁ last, ls = Text.closed ls₁ ++ last ∧ (∀ l ∈ ls₁, '\n' ∉ l) ∧
      (last = [] ∨ ∃ l, last = [l] ∧ '\n' ∉ l) := by
  induction ls with
  | nil => exact ⟨[], [], rfl, fun _ hl => absurd hl List.not_mem_nil, .inl rfl⟩
  | cons l ls ih =>
      obtain ⟨hfirst, hrest⟩ := h
      rcases hfirst _ rfl with ⟨line, hfree, hline⟩ | ⟨hfree, hnone⟩
      · cases line with
        | nil => cases (List.cons.inj hline).1
        | cons c line =>
            obtain ⟨ls₁, last, rfl, hls₁, hlast⟩ := ih hrest
            obtain rfl := (List.cons.inj hline).2
            refine ⟨line :: ls₁, last, rfl, fun l hl => ?_, hlast⟩
            rcases List.mem_cons.mp hl with rfl | hl
            · exact fun hmem => hfree (List.mem_cons_of_mem c hmem)
            · exact hls₁ l hl
      · obtain rfl : ls = [] := List.map_eq_nil_iff.mp (List.append_eq_nil_iff.mp hnone).1
        refine ⟨[], [l], rfl, fun _ hl => absurd hl List.not_mem_nil, .inr ⟨l, rfl, ?_⟩⟩
        exact fun hmem => hfree (List.mem_cons_of_mem _ hmem)

/-! ## The text of a template -/

/-- What is dropped at the start ends in front of the first element that is kept. -/
theorem dropWhile_append_cons {α : Type} {p : α → Bool} {a : α} (ha : p a = false)
    (as rest : List α) : (as ++ a :: rest).dropWhile p = as.dropWhile p ++ a :: rest := by
  induction as with
  | nil => exact List.dropWhile_cons_of_neg (by rw [ha]; exact Bool.false_ne_true)
  | cons b as ih =>
      rw [List.cons_append]
      by_cases hb : p b = true
      · rw [List.dropWhile_cons_of_pos hb, List.dropWhile_cons_of_pos hb, ih]
      · rw [List.dropWhile_cons_of_neg hb, List.dropWhile_cons_of_neg hb, List.cons_append]

/-- The text of a template is what stands below the first line of its definition. -/
theorem splitDefinition_splitName {head : Text} (hhead : '\n' ∉ head) (rest : Text) :
    (splitDefinition (splitName (head ++ '\n' :: rest)).2).2 = rest ++ ['\n'] := by
  let header := (head.dropWhile fun c => c ≠ ' ' && c ≠ '\t' && c ≠ '\n').dropWhile
    fun c => c = ' ' || c = '\t'
  have hheader : '\n' ∉ header := fun hmem =>
    hhead ((List.dropWhile_sublist _).subset ((List.dropWhile_sublist _).subset hmem))
  have hbody : (splitName (head ++ '\n' :: rest)).2 = header ++ '\n' :: rest := by
    simp only [splitName]
    rw [dropWhile_append_cons (by decide), dropWhile_append_cons (by decide)]
  rw [hbody, splitDefinition, Text.cutLine_append hheader]

/-- A definition of one line has no text. -/
theorem splitDefinition_splitName_of_not_mem {t : Text} (h : '\n' ∉ t) :
    (splitDefinition (splitName t).2).2 = [] := by
  have hbody : '\n' ∉ (splitName t).2 := fun hmem =>
    h ((List.dropWhile_sublist _).subset ((List.dropWhile_sublist _).subset hmem))
  rw [splitDefinition, Text.cutLine_of_not_mem hbody]

/-- The lines of a text that is put together from lines with their line feeds. -/
theorem physicalLines_closed {ls : List Text} (h : ∀ l ∈ ls, '\n' ∉ l) :
    Text.physicalLines (Text.closed ls).flatten = Text.closed ls := by
  have hpieces := Text.pieces_closed h []
  rw [List.append_nil] at hpieces
  exact hpieces.trans (List.append_nil _)

theorem flatten_closed_concat (ls : List Text) (l : Text) :
    (Text.closed (ls ++ [l])).flatten = (Text.closed ls).flatten ++ l ++ ['\n'] := by
  rw [Text.closed, List.map_append, List.flatten_append, List.append_assoc, List.map_singleton,
    List.flatten_singleton]
  rfl

/-- The text below the first line, if that has its line feed: the continuation lines, of which the
    last gets its line feed back. -/
theorem splitDefinition_ofText {head : Text} (hhead : '\n' ∉ head) {ls last : List Text}
    (hls : ∀ l ∈ ls, '\n' ∉ l) (hlast : last = [] ∨ ∃ l, last = [l] ∧ '\n' ∉ l) (line : Nat)
    (comment : Text) :
    ∃ ls', (∀ l ∈ ls', '\n' ∉ l) ∧ ls' <+: ls ++ last ∧
      (splitDefinition (Expression.ofText line comment
        ((head ++ ['\n']) ++ (Text.closed ls ++ last).flatten)).body).2 =
          (Text.closed ls').flatten := by
  show ∃ ls', _ ∧ _ ∧ (splitDefinition (splitName (Text.stripNewline _)).2).2 = _
  rw [List.append_assoc, List.singleton_append, List.flatten_append]
  by_cases hrest : last.flatten = []
  · -- nothing is on the last line, so the text ends where the lines with a line feed end
    rw [hrest, List.append_nil]
    refine ⟨ls, hls, List.prefix_append _ _, ?_⟩
    rcases List.eq_nil_or_concat ls with rfl | ⟨most, l, rfl⟩
    · have hstrip : Text.stripNewline (head ++ '\n' :: (Text.closed []).flatten) = head :=
        Text.stripNewline_append head
      rw [hstrip]
      exact splitDefinition_splitName_of_not_mem hhead
    · have hstrip := Text.stripNewline_append (head ++ '\n' :: ((Text.closed most).flatten ++ l))
      rw [List.append_assoc, List.cons_append] at hstrip
      rw [List.concat_eq_append, flatten_closed_concat, hstrip]
      exact splitDefinition_splitName hhead _
  · obtain ⟨l, rfl, hl⟩ := hlast.resolve_left fun hnone => hrest (by rw [hnone]; rfl)
    refine ⟨ls ++ [l], ?_, List.prefix_refl _, ?_⟩
    · intro l' hl'
      rcases List.mem_append.mp hl' with hl' | hl'
      · exact hls l' hl'
      · rw [List.mem_singleton.mp hl']
        exact hl
    · rw [List.flatten_singleton] at hrest ⊢
      have hend : (head ++ '\n' :: ((Text.closed ls).flatten ++ l)).getLast? ≠ some '\n' := by
        rw [← List.cons_append, ← List.append_assoc, List.getLast?_append_of_ne_nil _ hrest]
        exact fun hnewline => hl (List.mem_of_getLast? hnewline)
      have hstrip : Text.stripNewline (head ++ '\n' :: ((Text.closed ls).flatten ++ l)) = _ :=
        if_neg hend
      rw [hstrip, splitDefinition_splitName hhead, flatten_closed_concat]

theorem Template.body_of_ofDefinition {decl : Expanded} {t : Template}
    (h : ofDefinition decl = .ok t) : t.body = (splitDefinition decl.body).2 := by
  rw [ofDefinition] at h
  simp only at h
  split at h
  · cases h
  · split at h
    · cases h
    · obtain rfl := Except.ok.inj h
      rfl

/-- The lines of a template's text are the continuation lines of its definition, each with its line
    feed. -/
theorem Template.lines_ofDefinition {decl : Expanded} {t : Template} {line : Nat}
    {comment first : Text} {ls : List Text} {behind : Stream}
    (hread : Template.ofDefinition decl = .ok t)
    (htext : decl.toExpression = .ofText line comment (first ++ ls.flatten))
    (hcut : Stream.Cut (.text first :: tabbed ls ++ behind)) {i : Nat} {l' : Text}
    (hl' : (Text.physicalLines t.body)[i]? = some l') :
    ∃ l, l' = l ++ ['\n'] ∧ (ls[i]? = some (l ++ ['\n']) ∨ ls[i]? = some l) := by
  rw [body_of_ofDefinition hread, htext] at hl'
  obtain ⟨hfirst, hrest⟩ := hcut
  rcases hfirst _ rfl with ⟨head, hhead, rfl⟩ | ⟨hfree, hnone⟩
  · obtain ⟨ls₁, last, rfl, hls₁, hlast⟩ := Stream.Cut.tabbed hrest
    obtain ⟨ls', hls', hprefix, hsplit⟩ := splitDefinition_ofText hhead hls₁ hlast line comment
    rw [hsplit, physicalLines_closed hls', Text.closed, List.getElem?_map] at hl'
    obtain ⟨l, hl, rfl⟩ := Option.map_eq_some_iff.mp hl'
    refine ⟨l, rfl, ?_⟩
    have hat : (ls₁ ++ last)[i]? = some l := by
      obtain ⟨more, hmore⟩ := hprefix
      obtain ⟨hi, -⟩ := List.getElem?_eq_some_iff.mp hl
      rw [← hmore, List.getElem?_append_left hi, hl]
    have hlength : (Text.closed ls₁).length = ls₁.length := List.length_map _
    by_cases hi : i < ls₁.length
    · rw [List.getElem?_append_left hi] at hat
      rw [List.getElem?_append_left (by rw [hlength]; exact hi), Text.closed, List.getElem?_map,
        hat]
      exact .inl rfl
    · rw [List.getElem?_append_right (Nat.le_of_not_lt hi)] at hat
      rw [List.getElem?_append_right (by rw [hlength]; exact Nat.le_of_not_lt hi), hlength]
      exact .inr hat
  · -- the first line is the last one, and there is no text
    obtain rfl : ls = [] := List.map_eq_nil_iff.mp (List.append_eq_nil_iff.mp hnone).1
    have hempty : (splitDefinition (Expression.ofText line comment (first ++ [])).body).2 = [] := by
      refine splitDefinition_splitName_of_not_mem fun hmem => hfree ?_
      rw [List.append_nil, Text.stripNewline,
        if_neg fun h => hfree (List.mem_of_getLast? h)] at hmem
      exact hmem
    rw [List.flatten_nil, hempty] at hl'
    cases hl'

/-- The lines of a template's text stand in the file below its definition, one behind the other and
    each behind a tab; the last may have no line feed there. -/
theorem Template.getElem?_stream {bytes : Bytes} {ending : Option AccessError} {raw : Expression}
    {file : Text} {t : Template} (hraw : raw ∈ (readAll (.ofBytes bytes ending)).1)
    (hname : raw.name = defineWord)
    (hread : Template.ofDefinition (.ofExpression raw file) = .ok t) {i : Nat} {l' : Text}
    (hl' : (Text.physicalLines t.body)[i]? = some l') :
    ∃ l, l' = l ++ ['\n'] ∧
      ((Stream.ofBytes bytes ending)[raw.line + i]? = some (.text ('\t' :: (l ++ ['\n']))) ∨
        (Stream.ofBytes bytes ending)[raw.line + i]? = some (.text ('\t' :: l))) := by
  have hnamed : raw.name ≠ [] := by
    rw [hname]
    exact List.cons_ne_nil _ _
  obtain ⟨before, first, ls, comment, behind, hs, hline, htext⟩ := readFrom_command hraw hnamed
  have hcut := Stream.cut_ofBytes bytes ending
  rw [hs] at hcut ⊢
  obtain ⟨l, rfl, hl⟩ := lines_ofDefinition hread htext hcut.suffix hl'
  -- the first continuation line is the one behind the line of the definition
  have hat : ∀ c, ls[i]? = some c →
      (before ++ (.text first :: tabbed ls ++ behind))[raw.line + i]? =
        some (Line.text ('\t' :: c)) := by
    intro c hc
    obtain ⟨hi, -⟩ := List.getElem?_eq_some_iff.mp hc
    rw [hline, List.getElem?_append_right (by omega),
      show 0 + before.length + 1 + i - before.length = i + 1 by omega, List.cons_append,
      List.getElem?_cons_succ,
      List.getElem?_append_left (by rw [tabbed, List.length_map]; exact hi), tabbed,
      List.getElem?_map, hc]
    rfl
  exact ⟨l, rfl, hl.imp (hat _) (hat _)⟩

/-! ## What stops an evaluation -/

/-- The template was read off a definition in one of the files. -/
def Template.FromFile (fs : FileSystem) (o : Options) (t : Template) : Prop :=
  ∃ name stream raw, fs.access name = .ok stream ∧ raw ∈ (readAll stream).1 ∧
    raw.name = defineWord ∧
    Template.ofDefinition (.ofExpression raw (o.displayPath name)) = .ok t

/-- A line of the text of `t` stops every call of it. -/
def Template.StoppedBy (t : Template) (error : ExpansionError) : Prop :=
  ∃ flawed, (readAll (Stream.ofText t.body)).2 = some flawed ∧ error = .ofSyntax t.file flawed

/-- The templates are those of files, and a malformed line that stops the evaluation is one of a
    file or of the text of one of the templates. -/
structure Evaluation.Located (fs : FileSystem) (o : Options) (ev : Evaluation) : Prop where
  templates : ∀ t ∈ ev.templates.templates, t.FromFile fs o
  error : ∀ error, ev.error = some error → error.cause.family = .grammar →
    (∃ name stream flawed, fs.access name = .ok stream ∧ (readAll stream).2 = some flawed ∧
      error = .ofSyntax (o.displayPath name) flawed) ∨
    ∃ t ∈ ev.templates.templates, t.StoppedBy error

/-- A command is stopped only by a malformed line in the text of a template. -/
theorem settles_evalCommand_grammar (reg : Registry) (frames : List Expanded) (e : Expanded) :
    Settles (fun results => ∀ r ∈ results, True)
      (fun error => error.cause.family = .grammar → ∃ t ∈ reg.templates, t.StoppedBy error)
      (evalCommand reg frames e) := by
  induction frames, e using evalCommand_induction reg with
  | self frames e hself =>
      rw [evalCommand_self hself]
      exact fun _ _ => trivial
  | active frames e t hname hcallee hactive =>
      rw [evalCommand_active hname hcallee hactive]
      intro hfamily
      cases hfamily
  | call frames e t hname hcallee hidle ih =>
      obtain ⟨ht, -, -⟩ := Registry.callee?_eq_some hcallee
      refine settles_evalCommand_call hname hcallee hidle ?_ fun args line e' _ _ => ih e'
      intro error herror hfamily
      cases herror with
      | arguments => cases hfamily
      | parameter => cases hfamily
      | definition => cases hfamily
      | malformed hstops => exact ⟨t, ht, _, hstops, rfl⟩

namespace Evaluation.Located

variable {fs : FileSystem} {o : Options} {reg : Registry}

theorem give (hreg : ∀ t ∈ reg.templates, t.FromFile fs o) (results : List Expanded) :
    (Evaluation.give reg results).Located fs o :=
  ⟨hreg, fun _ herror => by cases herror⟩

/-- Another error says nothing about lines. -/
theorem stop (hreg : ∀ t ∈ reg.templates, t.FromFile fs o) {error : ExpansionError}
    (herror : error.cause.family ≠ .grammar) : (Evaluation.stop reg error).Located fs o := by
  refine ⟨hreg, fun error' hsame hfamily => ?_⟩
  obtain rfl := Option.some.inj hsame
  exact absurd hfamily herror

theorem andThen {ev : Evaluation} (h : ev.Located fs o) {next : Registry → Evaluation}
    (hnext : ∀ reg : Registry, (∀ t ∈ reg.templates, t.FromFile fs o) → (next reg).Located fs o) :
    (ev.andThen next).Located fs o := by
  rw [Evaluation.andThen]
  split
  · exact h
  · have hlater := hnext ev.templates h.templates
    exact ⟨hlater.templates, hlater.error⟩

end Evaluation.Located

section Files

variable {fs : FileSystem} {o : Options}

/-- An expression of a file leaves an evaluation located, if the files that it may splice do. -/
theorem evalExpression_located {opened : List Text} {name : Text} {stream : Stream}
    {raw : Expression} {reg : Registry} (haccess : fs.access name = .ok stream)
    (hraw : raw ∈ (readAll stream).1) (hreg : ∀ t ∈ reg.templates, t.FromFile fs o)
    (hsplice : ∀ target inner, opened.contains target = false → fs.access target = .ok inner →
      (evalExpressions fs o (target :: opened) target (readAll inner).2 (readAll inner).1
        reg).Located fs o) :
    (evalExpression fs o opened (.ofExpression raw (o.displayPath name)) reg).Located fs o := by
  generalize he : Expanded.ofExpression raw (o.displayPath name) = e
  by_cases hdefine : e.name = defineWord
  · have hsettles := settles_define reg e
    rw [evalExpression, if_pos hdefine]
    cases hread : Template.ofDefinition e >>= reg.define with
    | error cause =>
        rw [hread] at hsettles
        exact .stop hreg fun hfamily => by cases hsettles.symm.trans hfamily
    | ok last =>
        obtain ⟨t, ht, hnew⟩ := exists_of_bind_eq_ok hread
        refine .give (fun t' ht' => ?_) []
        obtain ⟨-, rfl⟩ := Registry.define_eq_ok_iff.mp hnew
        rcases List.mem_append.mp ht' with ht' | ht'
        · exact hreg t' ht'
        · rw [List.mem_singleton.mp ht']
          subst he
          exact ⟨name, stream, raw, haccess, hraw, hdefine, ht⟩
  · by_cases hinclude : e.name = includeWord
    · cases htarget : includeTarget o e.body with
      | error cause =>
          have hsettles := settles_includeTarget o e.body
          rw [htarget] at hsettles
          rw [evalExpression_unnamed hinclude htarget]
          exact .stop hreg fun hfamily => by cases hsettles.1.symm.trans hfamily
      | ok target =>
          cases hopen : opened.contains target with
          | true =>
              rw [evalExpression_reopened hinclude htarget hopen]
              exact .stop hreg fun hfamily => by cases hfamily
          | false =>
              cases hinner : fs.access target with
              | error error =>
                  rw [evalExpression_unopened hinclude htarget hopen hinner]
                  exact .stop hreg fun hfamily => by cases hfamily
              | ok inner =>
                  rw [evalExpression_opened hinclude htarget hopen hinner]
                  exact hsplice target inner hopen hinner
    · have hsettles := settles_evalCommand_grammar reg [] e
      rw [evalExpression_command hdefine hinclude]
      cases hcommand : evalCommand reg [] e with
      | ok results => exact .give hreg results
      | error error =>
          rw [hcommand] at hsettles
          refine ⟨hreg, fun error' hsame hfamily => .inr ?_⟩
          obtain rfl := Option.some.inj hsame
          exact hsettles hfamily

/-- So do all expressions of a file, with the line that ends its reading. -/
theorem evalExpressions_located {opened : List Text} {name : Text} {stream : Stream}
    {raws : List Expression} {reg : Registry} (haccess : fs.access name = .ok stream)
    (hraws : raws ⊆ (readAll stream).1) (hreg : ∀ t ∈ reg.templates, t.FromFile fs o) :
    (evalExpressions fs o opened name (readAll stream).2 raws reg).Located fs o := by
  match raws with
  | [] =>
      cases hstops : (readAll stream).2 with
      | none =>
          rw [evalExpressions]
          exact .give hreg []
      | some flawed =>
          rw [evalExpressions]
          refine ⟨hreg, fun error hsame _ => .inl ?_⟩
          obtain rfl := Option.some.inj hsame
          exact ⟨name, stream, flawed, haccess, hstops, rfl⟩
  | raw :: raws =>
      rw [evalExpressions]
      refine Evaluation.Located.andThen ?_ fun reg hreg =>
        evalExpressions_located haccess (fun e he => hraws (List.mem_cons_of_mem _ he)) hreg
      refine evalExpression_located haccess (hraws List.mem_cons_self) hreg ?_
      intro target inner hclosed hinner
      exact evalExpressions_located hinner (List.Subset.refl _) hreg
termination_by (closedNames fs opened, raws.length)
decreasing_by
  · exact .left _ _ (closedNames_cons_lt (FileSystem.mem_names_of_access hinner) hclosed)
  · exact .right _ (Nat.lt_succ_self _)

end Files

/-! ## Whole runs -/

/-- The line of index `i` is the first of these bytes that breaks the line grammar. -/
def BreaksAt (bytes : Bytes) (i : Nat) : Prop :=
  MalformedAt none (Text.pieces newlineByte bytes) i ∧
    ∀ j < i, ¬MalformedAt none (Text.pieces newlineByte bytes) j

/-- Bytes are read up to the first line that breaks the grammar, unless reading them fails. -/
theorem breaksAt_of_readAll {bytes : Bytes} {ending : Option AccessError} {flawed : SyntaxError}
    (hstops : (readAll (.ofBytes bytes ending)).2 = some flawed)
    (haccess : flawed.flaw.access = none) : ∃ i, flawed.line = i + 1 ∧ BreaksAt bytes i := by
  have hwhole : (readAll (.ofBytes bytes none)).2 = some flawed := by
    cases ending with
    | none => exact hstops
    | some error =>
        have hcut := Stream.cutShort_ofBytes bytes [] error none
        rw [List.append_nil] at hcut
        rcases readFrom_cutShort hcut 0 with hsame | ⟨-, line, error', hfails⟩
        · exact (congrArg Prod.snd hsame).symm.trans hstops
        · obtain rfl := Option.some.inj (hstops.symm.trans hfails)
          cases haccess
  have hdrain := congrArg Prod.snd
    (Reader.drain_eq_rest (r := Reader.ofStream (.ofBytes bytes none)) rfl)
  have hfirst : firstMalformed none 0 (Text.pieces newlineByte bytes) = some flawed :=
    (drain_ofBytes_error bytes).symm.trans (hdrain.trans hwhole)
  obtain ⟨i, l, rfl, -, hat, hbefore⟩ := firstMalformed_eq_some_iff.mp hfirst
  exact ⟨i, by rw [Nat.zero_add], hat, hbefore⟩

/-- The first line of a text that breaks the grammar is one of its lines. -/
theorem BreaksAt.getElem?_physicalLines {t : Text} {i : Nat} (h : BreaksAt (encodeUtf8 t) i) :
    ∃ l, (Text.physicalLines t)[i]? = some l := by
  obtain ⟨⟨l, hl, -⟩, -⟩ := h
  rw [pieces_encodeUtf8, List.getElem?_map] at hl
  obtain ⟨l', hl', -⟩ := Option.map_eq_some_iff.mp hl
  exact ⟨l', hl'⟩

/-- Every file is bytes, all of them or those that are delivered before a failure. -/
def FileSystem.OfBytes (fs : FileSystem) : Prop :=
  ∀ name stream, fs.access name = .ok stream → ∃ bytes ending, stream = .ofBytes bytes ending

/-- The place is a line of a file: the one at which its reading stopped, the first that breaks the
    line grammar. -/
def AtFileLine (fs : FileSystem) (o : Options) (place : Expanded) : Prop :=
  ∃ name bytes ending flawed i, fs.access name = .ok (.ofBytes bytes ending) ∧
    (readAll (.ofBytes bytes ending)).2 = some flawed ∧ flawed.line = i + 1 ∧ BreaksAt bytes i ∧
    place = .atLine (o.displayPath name) (i + 1)

/-- The place is a line of the text of a template, counted from the first line of the text; in the
    file of the definition this line stands so many lines below the definition. -/
def AtTextLine (fs : FileSystem) (o : Options) (reg : Registry) (place : Expanded) : Prop :=
  ∃ name bytes ending, ∃ t ∈ reg.templates, ∃ (raw : Expression) (i : Nat) (l : Text),
    fs.access name = .ok (.ofBytes bytes ending) ∧ raw ∈ (readAll (.ofBytes bytes ending)).1 ∧
    raw.name = defineWord ∧
    Template.ofDefinition (.ofExpression raw (o.displayPath name)) = .ok t ∧
    BreaksAt (encodeUtf8 t.body) i ∧ (Text.physicalLines t.body)[i]? = some (l ++ ['\n']) ∧
    place = .atLine (o.displayPath name) (i + 1) ∧
    ((Stream.ofBytes bytes ending)[raw.line + i]? = some (.text ('\t' :: (l ++ ['\n']))) ∨
      (Stream.ofBytes bytes ending)[raw.line + i]? = some (.text ('\t' :: l)))

namespace Expander

variable {fs : FileSystem} {o : Options} {script : Text}

/-- Where a run that a malformed line stops says that the line is. If it is a line of a file, then
    the file and the number are those of the line. If it is a line of the text of a template, then
    the file is that of the definition, but the number is the one in the text: in the file the line
    stands below the definition, and its number is larger by the number of the definition. -/
theorem drain_malformed (hbytes : fs.OfBytes) {error : ExpansionError} {message : String}
    (hfails : (start fs o script).drain.2.1 = some error)
    (hcause : error.cause = .grammar message none) :
    AtFileLine fs o error.expr ∨
      AtTextLine fs o (start fs o script).drain.2.2.templates error.expr := by
  cases haccess : fs.access script with
  | error access =>
      rw [drain_start_of_error haccess] at hfails
      obtain rfl := Option.some.inj hfails
      cases hcause
  | ok stream =>
      obtain ⟨-, herror, htemplates⟩ := drain_start_of_access (o := o) haccess
      rw [htemplates]
      rw [herror, evaluate_of_access haccess] at hfails
      rw [evaluate_of_access haccess]
      have hlocated : (evalExpressions fs o [script] script (readAll stream).2
          (readAll stream).1 {}).Located fs o :=
        evalExpressions_located haccess (List.Subset.refl _) fun t ht => by cases ht
      rcases hlocated.error error hfails (by rw [hcause]; rfl) with
        ⟨name, inner, flawed, hinner, hstops, rfl⟩ | ⟨t, ht, flawed, hstops, rfl⟩
      · obtain ⟨bytes, ending, rfl⟩ := hbytes name inner hinner
        obtain ⟨i, hline, hbreaks⟩ := breaksAt_of_readAll hstops (Cause.grammar.inj hcause).2
        refine .inl ⟨name, bytes, ending, flawed, i, hinner, hstops, hline, hbreaks, ?_⟩
        rw [← hline]
        rfl
      · obtain ⟨name, inner, raw, hinner, hraw, hname, hread⟩ := hlocated.templates t ht
        obtain ⟨bytes, ending, rfl⟩ := hbytes name inner hinner
        rw [← Stream.ofBytes_encodeUtf8] at hstops
        obtain ⟨i, hline, hbreaks⟩ := breaksAt_of_readAll hstops (Cause.grammar.inj hcause).2
        obtain ⟨l', hl'⟩ := hbreaks.getElem?_physicalLines
        obtain ⟨l, rfl, hat⟩ := Template.getElem?_stream hraw hname hread hl'
        refine .inr ⟨name, bytes, ending, t, ht, raw, i, l, hinner, hraw, hname, hread, hbreaks,
          hl', ?_, hat⟩
        rw [← hline, Template.file, Template.source_of_ofDefinition hread]
        rfl

/-- The third line of a script is the second one of a template's text and starts with a space. The
    run says that it is on the second line of the script, which is in order. -/
theorem drain_malformed_indented :
    let stream : Stream := .ofBytes (encodeUtf8 "define a\n\tok\n\t bad\na\n".toList) none
    let fs : FileSystem := { files := [("main.lb".toList, .ok stream)] }
    let run := (start fs {} "main.lb".toList).drain
    let place : Expanded := .atLine "main.lb".toList 2
    fs.OfBytes ∧
      run.2.1 = some ⟨place, .grammar "unexpected whitespace at start of line" none⟩ ∧
      stream[1]? = some (.text "\tok\n".toList) ∧ stream[2]? = some (.text "\t bad\n".toList) ∧
      ¬AtFileLine fs {} place ∧ AtTextLine fs {} run.2.2.templates place := by
  intro stream fs run place
  have hwell : (readAll stream).2 = none := by decide +kernel
  have hlines : stream[1]? = some (.text "\tok\n".toList) ∧
      stream[2]? = some (.text "\t bad\n".toList) := by decide +kernel
  have hgiven : (match (start fs {} "main.lb".toList).read.1 with
      | .ok _ => none
      | .error error => some error) =
        some ⟨place, .grammar "unexpected whitespace at start of line" none⟩ := by
    decide +kernel
  have honly : ∀ name s, fs.access name = .ok s → s = stream := by
    intro name s hs
    simp only [fs, FileSystem.access, List.find?_cons, List.find?_nil] at hs
    split at hs
    · rename_i hfind
      split at hfind
      · obtain ⟨-, rfl⟩ := Prod.mk.inj (Option.some.inj hfind)
        exact (Except.ok.inj hs).symm
      · cases hfind
    · cases hs
  have hbytes : fs.OfBytes := fun name s hs => ⟨_, none, honly name s hs⟩
  have hfails : run.2.1 =
      some ⟨place, .grammar "unexpected whitespace at start of line" none⟩ := by
    cases hread : (start fs {} "main.lb".toList).read with
    | mk outcome y =>
        rw [hread] at hgiven
        cases outcome with
        | ok found => cases hgiven
        | error error =>
            show (start fs {} "main.lb".toList).drain.2.1 = _
            rw [drain, hread]
            exact hgiven
  have hother : ¬AtFileLine fs {} place := by
    rintro ⟨name, bytes, ending, flawed, i, haccess, hstops, -⟩
    rw [honly name _ haccess, hwell] at hstops
    cases hstops
  exact ⟨hbytes, hfails, hlines.1, hlines.2, hother,
    (drain_malformed hbytes hfails rfl).resolve_left hother⟩

end Expander

end LineScript
