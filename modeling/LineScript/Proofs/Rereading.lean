import LineScript.Document.Definition
import LineScript.Proofs.Likeness
import LineScript.Proofs.Printing
import Mathlib.Data.List.TakeWhile

/-!
# Definitions that are printed and read again

A definition is kept as a name, parameters and a text in which every line is closed. To print it,
one final line feed is dropped and the lines are moved to the right; to read it again they are
moved back, and the line feed is put behind the text once more. Nothing is lost on the way, also
not the blank lines at the end of a text, where printing an expression does lose something.

* `splitDefinition_toExpression`: the header and the text come back.
* `Text.fields_flatMap`: so do the parameters.
* `ofDefinition_toExpression`: both together, as a template that is registered.
* `readFrom_commands`: printed commands one after another, whatever their bodies are.
-/

namespace LineScript

/-! ## Fields -/

namespace Text

theorem isBlank_space : isBlank ' ' = true := by decide

theorem isBlank_newline : isBlank '\n' = true := by decide

/-- A field comes off a text in front of a blank. -/
theorem cutField_append {field tail : Text} (hne : field ≠ [])
    (hfield : ∀ c ∈ field, isBlank c = false) (htail : ∀ c ∈ tail.head?, isBlank c = true) :
    cutField (field ++ tail) = (field, trimStart tail) := by
  have hsolid : ∀ c ∈ field, (!isBlank c) = true := by
    intro c hc
    rw [hfield c hc]
    rfl
  have hstart : trimStart (field ++ tail) = field ++ tail := by
    refine trimStart_eq_self ?_
    obtain ⟨c, field, rfl⟩ := List.exists_cons_of_ne_nil hne
    intro d hd
    obtain rfl := Option.some.inj hd
    exact hfield c List.mem_cons_self
  have htake : tail.takeWhile (!isBlank ·) = [] ∧ tail.dropWhile (!isBlank ·) = tail := by
    cases tail with
    | nil => exact ⟨rfl, rfl⟩
    | cons c tail =>
        have hc : ¬(!isBlank c) = true := by simp [htail c rfl]
        exact ⟨List.takeWhile_cons_of_neg hc, List.dropWhile_cons_of_neg hc⟩
  simp only [cutField]
  rw [hstart, List.takeWhile_append_of_pos hsolid, List.dropWhile_append_of_pos hsolid, htake.1,
    htake.2, List.append_nil]

/-! The three ways in which the fields of a text go on behind its first character. -/

section Fields

variable {c d : Char}

theorem fields_blank (hc : isBlank c = true) (t : Text) : fields (c :: t) = fields t := by
  cases t with
  | nil => exact if_pos hc
  | cons d t => exact if_pos hc

theorem fields_end (hc : isBlank c = false) {t : Text} (ht : ∀ d ∈ t.head?, isBlank d = true) :
    fields (c :: t) = [c] :: fields t := by
  have hsolid : ¬isBlank c = true := by simp [hc]
  cases t with
  | nil => exact if_neg hsolid
  | cons d t => exact (if_neg hsolid).trans (if_pos (ht d rfl))

theorem fields_cons (hc : isBlank c = false) (hd : isBlank d = false) (t : Text) :
    fields (c :: d :: t) =
      match fields (d :: t) with
      | [] => [[c]]
      | f :: fs => (c :: f) :: fs := by
  have hsolid : ¬isBlank c = true := by simp [hc]
  have hsolid' : ¬isBlank d = true := by simp [hd]
  exact (if_neg hsolid).trans (if_neg hsolid')

end Fields

theorem fields_trimStart (t : Text) : fields (trimStart t) = fields t := by
  induction t with
  | nil => rfl
  | cons c t ih =>
      by_cases hc : isBlank c = true
      · rw [trimStart, List.dropWhile_cons_of_pos hc, fields_blank hc]
        exact ih
      · rw [trimStart, List.dropWhile_cons_of_neg hc]

/-- A field is the first of the fields of a text that starts with it. -/
theorem fields_append {field tail : Text} (hne : field ≠ [])
    (hfield : ∀ c ∈ field, isBlank c = false) (htail : ∀ c ∈ tail.head?, isBlank c = true) :
    fields (field ++ tail) = field :: fields tail := by
  induction field with
  | nil => exact absurd rfl hne
  | cons c field ih =>
      have hc := hfield c List.mem_cons_self
      cases field with
      | nil => exact fields_end hc htail
      | cons d field =>
          have hd := hfield d (List.mem_cons_of_mem c List.mem_cons_self)
          have hrest := ih (List.cons_ne_nil d field)
            fun e he => hfield e (List.mem_cons_of_mem c he)
          rw [List.cons_append] at hrest
          rw [List.cons_append, List.cons_append, fields_cons hc hd, hrest]

/-- Fields are not empty and have no blanks. -/
theorem fields_solid (t : Text) :
    ∀ field ∈ fields t, field ≠ [] ∧ ∀ c ∈ field, isBlank c = false := by
  have hsingle : ∀ {c : Char}, isBlank c = false → [c] ≠ [] ∧ ∀ d ∈ [c], isBlank d = false := by
    intro c hc
    refine ⟨List.cons_ne_nil c [], fun d hd => ?_⟩
    rw [List.mem_singleton.mp hd]
    exact hc
  induction t with
  | nil => exact fun field hfield => absurd hfield List.not_mem_nil
  | cons c t ih =>
      cases hc : isBlank c with
      | true =>
          rw [fields_blank hc]
          exact ih
      | false =>
          by_cases ht : ∀ d ∈ t.head?, isBlank d = true
          · rw [fields_end hc ht]
            intro field hfield
            rcases List.mem_cons.mp hfield with rfl | hfield
            · exact hsingle hc
            · exact ih field hfield
          · cases t with
            | nil => exact absurd (fun d hd => by cases hd) ht
            | cons d t =>
                -- the first field of the rest gets one more character in front
                have hd : isBlank d = false := by simpa using ht
                rw [fields_cons hc hd]
                cases hrest : fields (d :: t) with
                | nil =>
                    intro field hfield
                    rw [List.mem_singleton.mp hfield]
                    exact hsingle hc
                | cons f fs =>
                    rw [hrest] at ih
                    intro field hfield
                    rcases List.mem_cons.mp hfield with rfl | hfield
                    · refine ⟨List.cons_ne_nil c f, fun e he => ?_⟩
                      rcases List.mem_cons.mp he with rfl | he
                      · exact hc
                      · exact (ih f List.mem_cons_self).2 e he
                    · exact ih field (List.mem_cons_of_mem f hfield)

theorem head?_flatMap_space (params : List Text) :
    ∀ c ∈ (params.flatMap (' ' :: ·)).head?, isBlank c = true := by
  cases params with
  | nil =>
      intro c hc
      cases hc
  | cons p params =>
      intro c hc
      obtain rfl := Option.some.inj hc
      exact isBlank_space

/-- Fields that are written with one space in front of each are read again. -/
theorem fields_flatMap {params : List Text}
    (h : ∀ p ∈ params, p ≠ [] ∧ ∀ c ∈ p, isBlank c = false) :
    fields (params.flatMap (' ' :: ·)) = params := by
  induction params with
  | nil => rfl
  | cons p params ih =>
      obtain ⟨hne, hsolid⟩ := h p List.mem_cons_self
      rw [List.flatMap_cons, List.cons_append, fields_blank isBlank_space,
        fields_append hne hsolid (head?_flatMap_space params),
        ih fun q hq => h q (List.mem_cons_of_mem p hq)]

/-! ## Lines -/

theorem cutLine_of_not_mem {t : Text} (h : '\n' ∉ t) : cutLine t = (t, none) := by
  have hdrop : t.dropWhile (· ≠ '\n') = [] := by
    rw [List.dropWhile_eq_nil_iff]
    intro c hc
    simpa using fun heq : c = '\n' => h (heq ▸ hc)
  rw [cutLine, hdrop]

theorem cutLine_append {t : Text} (h : '\n' ∉ t) (rest : Text) :
    cutLine (t ++ '\n' :: rest) = (t, some rest) := by
  have hline : ∀ c ∈ t, decide (c ≠ '\n') = true := by
    intro c hc
    simpa using fun heq : c = '\n' => h (heq ▸ hc)
  have hdrop : (t ++ '\n' :: rest).dropWhile (· ≠ '\n') = '\n' :: rest := by
    rw [List.dropWhile_append_of_pos hline]
    rfl
  have htake : (t ++ '\n' :: rest).takeWhile (· ≠ '\n') = t := by
    rw [List.takeWhile_append_of_pos hline]
    exact List.append_nil t
  rw [cutLine, hdrop, htake]

end Text

/-! ## What is defined -/

/-- A name, parameters and a text as they are read off a definition. -/
structure Readable (name : Text) (params : List Text) (body : Text) : Prop where
  named : name ≠ []
  solid : ∀ c ∈ name, isBlank c = false
  params : ∀ p ∈ params, p ≠ [] ∧ ∀ c ∈ p, isBlank c = false
  closed : body = [] ∨ body.getLast? = some '\n'

theorem splitDefinition_closed (body : Text) :
    (splitDefinition body).2 = [] ∨ (splitDefinition body).2.getLast? = some '\n' := by
  rw [splitDefinition]
  split
  · exact .inl rfl
  · exact .inr List.getLast?_concat

/-- A template that is registered has a name without control characters. -/
theorem readable_of_ofDefinition {decl : Expanded} {t : Template}
    (h : Template.ofDefinition decl = .ok t) :
    Readable t.name t.params t.body ∧ ∀ c ∈ t.name, isControl c = false := by
  rw [Template.ofDefinition] at h
  simp only at h
  split at h
  · cases h
  · rename_i hname
    split at h
    · cases h
    · rename_i hvalid
      obtain rfl := Except.ok.inj h
      have hchars : ∀ c ∈ (Text.cutField (splitDefinition decl.body).1).1,
          isBlank c = false ∧ isControl c = false := by
        intro c hc
        have hfine := List.any_eq_false.mp (Bool.eq_false_iff.mpr hvalid) c hc
        simpa using hfine
      exact ⟨⟨hname, fun c hc => (hchars c hc).1, Text.fields_solid _,
        splitDefinition_closed decl.body⟩, fun c hc => (hchars c hc).2⟩

namespace Definition

/-- The expression that a definition prints as. -/
def toExpression (d : Definition) : Expression :=
  { name := defineWord
    body := if d.body = [] then d.header else d.header ++ ['\n'] ++ d.body }

variable {d : Definition}

theorem newline_not_mem_header (h : Readable d.name d.params d.body) : '\n' ∉ d.header := by
  intro hmem
  rcases List.mem_append.mp hmem with hmem | hmem
  · have hsolid := h.solid _ hmem
    rw [Text.isBlank_newline] at hsolid
    cases hsolid
  · obtain ⟨p, hp, hmem⟩ := List.mem_flatMap.mp hmem
    rcases List.mem_cons.mp hmem with heq | hmem
    · exact absurd heq (by decide)
    · have hsolid := (h.params p hp).2 _ hmem
      rw [Text.isBlank_newline] at hsolid
      cases hsolid

/-- The header and the text of a printed definition come back. -/
theorem splitDefinition_toExpression (h : Readable d.name d.params d.body) :
    splitDefinition (Expression.reprintedBody d.toExpression.body) = (d.header, d.body) := by
  have hfree := newline_not_mem_header h
  -- the header starts with the name, so printing takes no blanks from the start
  have hstart : ∀ {body rest : Text}, Text.stripNewline body = d.header ++ rest →
      Expression.reprintedBody body = d.header ++ rest := by
    intro body rest hstrip
    obtain ⟨c, name, hname⟩ := List.exists_cons_of_ne_nil h.named
    have hc : isBlank c = false := h.solid c (by rw [hname]; exact List.mem_cons_self)
    have hhead : (d.header ++ rest).head? = some c := by
      rw [header, hname]
      rfl
    rw [Expression.reprintedBody, hstrip, hhead, if_neg]
    · refine Text.trimStart_eq_self ?_
      rw [hhead]
      rintro _ ⟨⟩
      exact hc
    · intro heq
      rw [Option.some.inj heq, Text.isBlank_newline] at hc
      cases hc
  -- an empty text is printed as the header alone, any other behind a line feed
  rcases h.closed with hempty | hlast
  · have hstrip : Text.stripNewline d.toExpression.body = d.header ++ [] := by
      rw [toExpression, if_pos hempty, List.append_nil]
      exact if_neg fun heq => hfree (List.mem_of_getLast? heq)
    rw [hstart hstrip, List.append_nil, splitDefinition, Text.cutLine_of_not_mem hfree, hempty]
  · obtain ⟨rest, hrest⟩ := List.getLast?_eq_some_iff.mp hlast
    have hstrip : Text.stripNewline d.toExpression.body = d.header ++ '\n' :: rest := by
      have hne : d.body ≠ [] := by simp [hrest]
      rw [toExpression, if_neg hne, hrest, ← List.append_assoc, Text.stripNewline_append,
        List.append_assoc]
      rfl
    rw [hstart hstrip, splitDefinition, Text.cutLine_append hfree, hrest]

/-- A printed definition is read as a template that says what the definition says. -/
theorem ofDefinition_toExpression (h : Readable d.name d.params d.body)
    (hcontrol : ∀ c ∈ d.name, isControl c = false) {decl : Expanded}
    (hdecl : decl.body = Expression.reprintedBody d.toExpression.body) :
    Template.ofDefinition decl = .ok ⟨d.name, d.params, d.body, decl⟩ := by
  have hspace : ∀ c ∈ (d.params.flatMap (' ' :: ·)).head?, isBlank c = true :=
    Text.head?_flatMap_space d.params
  have hvalid : ¬(d.name.any fun c => isBlank c || isControl c) = true := by
    rw [Bool.not_eq_true, List.any_eq_false]
    intro c hc
    simp [h.solid c hc, hcontrol c hc]
  rw [Template.ofDefinition, hdecl, splitDefinition_toExpression h]
  simp only [header, Text.cutField_append h.named h.solid hspace, if_neg h.named, if_neg hvalid,
    Text.fields_trimStart, Text.fields_flatMap h.params]

end Definition

/-! ## Printed commands -/

/-- A name that starts a command, and neither a comment nor an empty line. -/
structure CommandName (name : Text) : Prop extends Expression.ReadName name where
  ne_nil : name ≠ []
  not_comment : name.head? ≠ some '#'

theorem commandName_defineWord : CommandName defineWord where
  toReadName := Expression.readName_of_splitName (by decide +kernel)
  ne_nil := by decide
  not_comment := by decide

/-- Commands that are printed one after another are read again, up to what printing takes from
    their bodies. -/
theorem readFrom_commands {es : List Expression} (h : ∀ e ∈ es, CommandName e.name) (n : Nat) :
    ∃ raws, readFrom n (Stream.ofText (es.flatMap Expression.toSource)) = (raws, none) ∧
      raws.map Expression.content =
        es.map fun e => ([], e.name, Expression.reprintedBody e.body) := by
  induction es generalizing n with
  | nil => exact ⟨[], readFrom.eq_def n [], rfl⟩
  | cons e es ih =>
      have hname := h e List.mem_cons_self
      have hlater := fun e he => h e (List.mem_cons_of_mem _ he)
      obtain ⟨raws, hraws, hcontent⟩ := ih hlater (n + e.toSource.count '\n')
      have hrest := Expression.head?_flatMap_toSource fun e he => (hlater e he).toReadName
      let raw : Expression :=
        { e with line := n + 1, comment := [], body := Expression.reprintedBody e.body }
      refine ⟨raw :: raws, ?_, ?_⟩
      · have hfirst := Expression.readExpression_toSource hname.toReadName hname.ne_nil
          hname.not_comment n hrest
        rw [List.flatMap_cons, readFrom_eq, hfirst]
        simp only [hraws, raw]
      · rw [List.map_cons, hcontent]
        rfl

end LineScript
