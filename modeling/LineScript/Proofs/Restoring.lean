import LineScript.Proofs.Previews
import LineScript.Proofs.Unrolling

/-!
# Definitions come back from the page

A document shows each of its definitions as it would be written, and what is shown is read as the
same definition again, whatever the lines of its text are. A survey is less strict than a run: it
also keeps a definition whose name has a control character, and such a definition is read again but
not registered.

* `Definition.readable_of_ofExpression?`: what is read off an expression can be printed.
* `Definition.parse_toSource`: the page that holds one definition.
* `Document.definitions_restored`: every definition of a document comes back.
-/

namespace LineScript

/-- The header is the first line. -/
theorem splitDefinition_fst (body : Text) : (splitDefinition body).1 = (Text.cutLine body).1 := by
  rw [splitDefinition]
  split
  · rename_i hcut
    rw [hcut]
  · rename_i hcut
    rw [hcut]

namespace Definition

variable {d : Definition}

/-- What is read off an expression has a name, and its fields have no blanks. -/
theorem readable_of_ofExpression? {file : Text} {e : Expression}
    (h : ofExpression? file e = some d) : Readable d.name d.params d.body := by
  rw [ofExpression?] at h
  simp only at h
  split at h
  · cases h
  · rename_i hname
    obtain rfl := Option.some.inj h
    exact ⟨hname, fun c hc => Text.isBlank_of_mem_cutField hc, Text.fields_solid _,
      splitDefinition_closed e.body⟩

/-- The page that holds one definition is read as one expression. -/
theorem parse_toSource (d : Definition) :
    parse d.toSource =
      .ok [⟨1, [], defineWord, Expression.reprintedBody d.toExpression.body⟩] := by
  have hname := commandName_defineWord
  have hend : ([] : Text).head? ≠ some '\t' := by simp
  have hread := Expression.readExpression_toSource (e := d.toExpression) hname.toReadName
    hname.ne_nil hname.not_comment 0 hend
  rw [List.append_nil] at hread
  rw [parse_eq_ok_iff]
  show readFrom 0 (Stream.ofText d.toExpression.toSource) = _
  rw [readFrom_eq, hread]
  show (_ :: (readFrom _ []).1, (readFrom _ []).2) = _
  rw [readFrom]
  rfl

/-- The header gives back the name and the parameters. -/
theorem cutField_header (h : Readable d.name d.params d.body) :
    (Text.cutField d.header).1 = d.name ∧ Text.fields (Text.cutField d.header).2 = d.params := by
  rw [header, Text.cutField_append h.named h.solid (Text.head?_flatMap_space d.params)]
  exact ⟨rfl, (Text.fields_trimStart _).trans (Text.fields_flatMap h.params)⟩

/-- A printed definition is not registered if its name has a control character. -/
theorem ofDefinition_toExpression_of_control (h : Readable d.name d.params d.body)
    (hcontrol : ∃ c ∈ d.name, isControl c = true) {decl : Expanded}
    (hdecl : decl.body = Expression.reprintedBody d.toExpression.body) :
    Template.ofDefinition decl = .error (.invalidTemplateName d.name) := by
  have hinvalid : (d.name.any fun c => isBlank c || isControl c) = true := by
    obtain ⟨c, hc, hbad⟩ := hcontrol
    exact List.any_eq_true.mpr ⟨c, hc, by rw [hbad, Bool.or_true]⟩
  rw [Template.ofDefinition, hdecl, splitDefinition_toExpression h]
  simp only [(cutField_header h).1, if_neg h.named, if_pos hinvalid]

end Definition

namespace Survey

/-- What is kept was there, or is one of those that were to be kept. -/
theorem mem_foldl_keep {ds : List Definition} {s : Survey} {d : Definition}
    (h : d ∈ (ds.foldl keep s).definitions) : d ∈ s.definitions ∨ d ∈ ds := by
  induction ds generalizing s with
  | nil => exact .inl h
  | cons first ds ih =>
      rcases ih h with hmem | hmem
      · rw [keep] at hmem
        split at hmem
        · exact .inl hmem
        · rcases List.mem_append.mp hmem with hmem | hmem
          · exact .inl hmem
          · rw [List.mem_singleton.mp hmem]
            exact .inr List.mem_cons_self
      · exact .inr (List.mem_cons_of_mem first hmem)

end Survey

namespace Document

/-- Every definition of a document is read off an expression, of the document or of a file. -/
theorem exists_ofExpression?_of_mem_found {fs : FileSystem} {o : Options} {name text : Text}
    {d : Definition} (h : d ∈ (Document.ofText fs o name text).found) :
    ∃ file e, e.name = defineWord ∧ Definition.ofExpression? file e = some d := by
  obtain ⟨scans, order, hunrolls⟩ := exists_unrolls fs o [name] name (readAll (.ofText text)).1
  have hsurvey : survey fs o name text = _ := hunrolls.visitFile_eq (Nat.lt_succ_self _)
  have hfound : d ∈ ((order.filterMap definitionAt).foldl Survey.keep {}).definitions := by
    rw [Document.ofText, hsurvey] at h
    exact h
  have hmem := (Survey.mem_foldl_keep hfound).resolve_left List.not_mem_nil
  obtain ⟨⟨file, e⟩, -, hat⟩ := List.mem_filterMap.mp hmem
  rw [definitionAt] at hat
  split at hat
  · rename_i hname
    exact ⟨file, e, hname, hat⟩
  · cases hat

/-- Printing a definition and reading it back loses nothing. For every file system, setting, name
    and text of a document and every definition `d` that it shows: the printed definition parses as
    exactly one expression, a `define` on the first line without a comment. The name on its header
    line, the fields behind the name and the text below the header are the name, the parameters and
    the text of `d`, also if the text is empty or ends with blank lines. Wherever the expression
    stands, a template is read from it if and only if the name has no control character, and then it
    has this name, these parameters and this text; otherwise the name is refused. -/
theorem definitions_restored (fs : FileSystem) (o : Options) (name text : Text) (d : Definition)
    (h : d ∈ (Document.ofText fs o name text).definitions) :
    ∃ e, parse d.toSource = .ok [e] ∧ e.name = defineWord ∧ e.line = 1 ∧ e.comment = [] ∧
      (definitionHeader e.body).1 = d.name ∧ Text.fields (definitionHeader e.body).2 = d.params ∧
      (splitDefinition e.body).2 = d.body ∧
      ∀ decl : Expanded, decl.toExpression = e →
        (Template.ofDefinition decl = .ok ⟨d.name, d.params, d.body, decl⟩ ↔
          ∀ c ∈ d.name, isControl c = false) ∧
        ((∃ c ∈ d.name, isControl c = true) →
          Template.ofDefinition decl = .error (.invalidTemplateName d.name)) := by
  obtain ⟨file, raw, -, hraw⟩ :=
    exists_ofExpression?_of_mem_found ((perm_definitions _).mem_iff.mp h)
  have hreadable := Definition.readable_of_ofExpression? hraw
  have hsplit := Definition.splitDefinition_toExpression hreadable
  have hheader : (Text.cutLine (Expression.reprintedBody d.toExpression.body)).1 = d.header := by
    rw [← splitDefinition_fst, hsplit]
  obtain ⟨hname, hparams⟩ := Definition.cutField_header hreadable
  refine ⟨_, d.parse_toSource, rfl, rfl, rfl, ?_, ?_, ?_, ?_⟩
  · show (Text.cutField (Text.cutLine _).1).1 = d.name
    rw [hheader, hname]
  · show Text.fields (Text.cutField (Text.cutLine _).1).2 = d.params
    rw [hheader, hparams]
  · show (splitDefinition (Expression.reprintedBody d.toExpression.body)).2 = d.body
    rw [hsplit]
  · intro decl hdecl
    have hbody : decl.body = Expression.reprintedBody d.toExpression.body :=
      congrArg Expression.body hdecl
    have hrefused := fun hcontrol =>
      Definition.ofDefinition_toExpression_of_control hreadable hcontrol hbody
    refine ⟨⟨fun hok c hc => ?_, fun hcontrol => ?_⟩, hrefused⟩
    · cases hbad : isControl c with
      | false => rfl
      | true =>
          rw [hrefused ⟨c, hc, hbad⟩] at hok
          cases hok
    · exact Definition.ofDefinition_toExpression hreadable hcontrol hbody

/-- A text that ends with two blank lines comes back with them. A name with a bell in it comes back,
    and is refused. -/
theorem definitions_restored_blank_lines :
    let text := "define gap x\n\tsay $x\n\t\n\t\ndefine a\x07\n\t\n".toList
    let doc := Document.ofText { files := [] } {} ['m'] text
    let gap : Definition := ⟨"gap".toList, [['x']], "say $x\n\n\n".toList, [], 1, ['m']⟩
    let bell : Definition := ⟨['a', '\x07'], [], ['\n'], [], 5, ['m']⟩
    (gap ∈ doc.definitions ∧ bell ∈ doc.definitions) ∧
      (∃ e, parse gap.toSource = .ok [e] ∧ (splitDefinition e.body).2 = gap.body ∧
        ∀ file, Template.ofDefinition (.ofExpression e file) =
          .ok ⟨gap.name, gap.params, gap.body, .ofExpression e file⟩) ∧
      ∃ e, parse bell.toSource = .ok [e] ∧ (splitDefinition e.body).2 = bell.body ∧
        ∀ file, Template.ofDefinition (.ofExpression e file) =
          .error (.invalidTemplateName bell.name) := by
  intro text doc gap bell
  have hgap : gap ∈ doc.definitions :=
    (perm_definitions doc).mem_iff.mpr (by decide +kernel)
  have hbell : bell ∈ doc.definitions :=
    (perm_definitions doc).mem_iff.mpr (by decide +kernel)
  obtain ⟨e, hparse, -, -, -, -, -, hbody, hread⟩ :=
    definitions_restored { files := [] } {} ['m'] text gap hgap
  obtain ⟨e', hparse', -, -, -, -, -, hbody', hread'⟩ :=
    definitions_restored { files := [] } {} ['m'] text bell hbell
  refine ⟨⟨hgap, hbell⟩, ⟨e, hparse, hbody, fun file => ?_⟩, e', hparse', hbody', fun file => ?_⟩
  · refine (hread _ rfl).1.mpr fun c hc => ?_
    have hclean : (gap.name.all fun c => !isControl c) = true := by decide
    simpa using List.all_eq_true.mp hclean c hc
  · exact (hread' _ rfl).2 ⟨'\x07', by decide, by decide⟩

end Document

end LineScript
