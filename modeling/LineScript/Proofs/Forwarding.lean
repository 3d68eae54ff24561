import LineScript.Proofs.Cycles
import LineScript.Proofs.Printing
import LineScript.Proofs.Segments

/-!
# Arguments that are handed on

A template may do nothing with its argument but hand it on to another one. On the way through a
chain of such templates the argument is put into a line, split off the line again as a body, and
freed of a final line feed, once for every template. Nothing of it is lost or read in another way:
a line is taken apart before the argument is put in, a single argument is the whole body, and a text
that does not end with a line feed keeps its end.

* `evalCommand_forwards`: one template of the chain.
* `evalCommand_forwarded`: a chain, inside any calls.
* `execute_forwarded`: a chain that a file calls.
-/

namespace LineScript

/-! ## Words -/

/-- A run of ASCII letters, digits and underscores. -/
structure IsWord (name : Text) : Prop where
  ne_nil : name ≠ []
  chars : ∀ c ∈ name, IsWordChar c

/-- Where the characters of words stand among all characters. -/
theorem IsWordChar.bounds {c : Char} (h : IsWordChar c) : 48 ≤ c.toNat ∧ c.toNat ≤ 122 := by
  have hle : ∀ {a b : Char}, a ≤ b → a.toNat ≤ b.toNat := fun h => h
  rcases h with ⟨hlow, hhigh⟩ | ⟨hlow, hhigh⟩ | ⟨hlow, hhigh⟩ | rfl
  · exact ⟨Nat.le_trans (by decide) (hle hlow), hle hhigh⟩
  · exact ⟨Nat.le_trans (by decide) (hle hlow), Nat.le_trans (hle hhigh) (by decide)⟩
  · exact ⟨hle hlow, Nat.le_trans (hle hhigh) (by decide)⟩
  · decide

theorem IsWordChar.not_isBlank {c : Char} (h : IsWordChar c) : isBlank c = false := by
  obtain ⟨hlow, hhigh⟩ := h.bounds
  simp only [isBlank, Bool.or_eq_false_iff, Bool.and_eq_false_iff, decide_eq_false_iff_not,
    beq_eq_false_iff_ne]
  omega

theorem IsWordChar.ne {c d : Char} (h : IsWordChar c) (hd : d.toNat < 48) : c ≠ d := by
  rintro rfl
  exact absurd h.bounds.1 (Nat.not_le_of_lt hd)

namespace IsWord

variable {name : Text}

/-- A word is read as the name of a command. -/
theorem commandName (h : IsWord name) : CommandName name where
  chars := fun c hc => ⟨(h.chars c hc).ne (by decide), (h.chars c hc).ne (by decide),
    (h.chars c hc).ne (by decide)⟩
  head := fun c hc => (h.chars c (List.mem_of_head? hc)).not_isBlank
  last := fun c hc => (h.chars c (List.mem_of_getLast? hc)).not_isBlank
  ne_nil := h.ne_nil
  not_comment := fun hc => (h.chars _ (List.mem_of_head? hc)).ne (by decide) rfl

/-- No argument is put into a word. -/
theorem not_mem_dollar (h : IsWord name) : '$' ∉ name :=
  fun hc => (h.chars _ hc).ne (by decide) rfl

end IsWord

/-! ## One template -/

/-- The template `name` has one parameter, and its text is one line, which hands the argument on to
    the command `next`. -/
def Registry.Forwards (reg : Registry) (name next : Text) : Prop :=
  ∃ t x, reg.get? name = some t ∧ Refers x x [] ∧ t.params = [x] ∧
    t.body = next ++ ' ' :: '$' :: x ++ ['\n']

section Forwarding

variable {reg : Registry} {name next cmd x : Text} {names : List Text} {t : Template}
  {frames : List Expanded} {e site : Expanded}

/-- A name that needs no braces stands on one line. -/
theorem Refers.not_mem_newline {spelling rest : Text} (h : Refers spelling name rest)
    (hplain : spelling = name) : '\n' ∉ name := by
  cases h with
  | braced hne hfirst =>
      have hlength := congrArg List.length hplain
      simp only [List.length_cons, List.length_append, List.length_nil] at hlength
      omega
  | mark hmark =>
      intro hmem
      obtain rfl := List.mem_singleton.mp hmem
      exact absurd (isSingleName_iff.mpr hmark) (by decide)
  | word hplain hword hstop => exact fun hmem => (hword _ hmem).ne (by decide) rfl

/-- The line that hands the argument on is read as the next command with a reference for a body. -/
theorem readAll_forwards (hnext : IsWord next) (hx : '\n' ∉ x) :
    readAll (Stream.ofText (next ++ ' ' :: '$' :: x ++ ['\n'])) =
      ([⟨1, [], next, '$' :: x⟩], none) := by
  let line : Expression := { name := next, body := '$' :: x }
  have hbody : '\n' ∉ '$' :: x := by simp [hx]
  have hlast : ('$' :: x).getLast? ≠ some '\n' := fun hc => hbody (List.mem_of_getLast? hc)
  have hname := hnext.commandName
  have hcanonical : line.Canonical :=
    .inr ⟨hname.ne_nil, hname.chars, hname.head, hname.last, hname.not_comment, hlast,
      fun c hc => .inr (Option.some.inj hc ▸ rfl)⟩
  have hsource : next ++ ' ' :: '$' :: x ++ ['\n'] = [line].flatMap Expression.toSource := by
    have htail : Expression.printedTail ('$' :: x) = ' ' :: '$' :: x := by
      rw [Expression.printedTail, Text.stripNewline, if_neg hlast]
      rfl
    have hindented := Text.indented_append (show '\n' ∉ ' ' :: '$' :: x by simp [hx]) []
    rw [List.append_nil, show Text.indented [] = [] from rfl, List.append_nil] at hindented
    rw [List.flatMap_singleton, Expression.toSource_eq, htail, hindented]
  rw [hsource, readAll,
    Expression.readFrom_toSource (fun e he => List.mem_singleton.mp he ▸ hcanonical)]
  rfl

/-- A body that does not end with a line feed is the value of the only parameter. -/
theorem parameterValue_single (ht : t.params = [x]) {v : Text} (hne : v ≠ [])
    (hlast : v.getLast? ≠ some '\n') :
    parameterValue t (.ofBody (some 1) v) x = .ok v := by
  have hindex : t.paramIndex? x = some 0 := by simp [Template.paramIndex?, ht, List.idxOf?]
  have hvalue : (Arguments.ofBody (some 1) v).get 0 = v := by
    rw [Arguments.get, Arguments.ofBody, splitArguments_one hne]
    exact if_neg hlast
  rw [parameterValue, hindex]
  exact congrArg Except.ok hvalue

/-- A call of a template that hands its argument on is the call of the next command with the same
    body, one call further in. -/
theorem evalCommand_forwards (hforwards : reg.Forwards e.name next) (hword : IsWord e.name)
    (hnext : IsWord next) (hdefine : next ≠ defineWord)
    (hidle : (activeNames frames).contains e.name = false) (hne : e.body ≠ [])
    (hlast : e.body.getLast? ≠ some '\n') :
    ∃ e' : Expanded, e'.name = next ∧ e'.body = e.body ∧
      evalCommand reg frames e = evalCommand reg (frames ++ [{ e with stack := frames }]) e' := by
  obtain ⟨t, x, hget, hrefers, hparams, hbody⟩ := hforwards
  have hcallee : reg.callee? e.name = some t := by
    rw [Registry.callee?, hget, Option.filter_some_pos (by simp [hbody])]
  have hread := readAll_forwards hnext (hrefers.not_mem_newline rfl)
  rw [← hbody] at hread
  have hargs : matchArguments t { e with stack := frames } = .ok (.ofBody (some 1) e.body) := by
    have hsize : (Arguments.ofBody (some 1) e.body).size = 1 := by
      rw [Arguments.size, Arguments.ofBody, splitArguments_one hne]
      rfl
    rw [matchArguments, hparams]
    exact if_pos hsize
  have hvalue : substitute (parameterValue t (.ofBody (some 1) e.body)) ('$' :: x) =
      .ok e.body := by
    have hsegments : Segmented ('$' :: (x ++ [])) [.reference ('$' :: x) x] :=
      .reference hrefers .done
    rw [List.append_nil] at hsegments
    rw [hsegments.substitute_eq]
    simp [Segment.fill, parameterValue_single hparams hne hlast]
  have hline : instantiate t (.ofBody (some 1) e.body) { e with stack := frames }
      ⟨1, [], next, '$' :: x⟩ = .ok (.ofExpression ⟨1, [], next, e.body⟩ t.file) := by
    rw [instantiate, substitute_eq_ok _ hnext.not_mem_dollar, hvalue]
    exact if_neg hdefine
  refine ⟨.ofExpression ⟨1, [], next, e.body⟩ t.file, rfl, rfl, ?_⟩
  rw [evalCommand_call hword.ne_nil hcallee hidle, hread]
  simp only [hargs, List.mapM_cons, List.mapM_nil, evalLine, hline, bind, Except.bind]
  cases evalCommand reg (frames ++ [{ e with stack := frames }])
    (.ofExpression ⟨1, [], next, e.body⟩ t.file) with
  | error error => rfl
  | ok results => exact congrArg Except.ok (List.append_nil results)

/-! ## Chains -/

/-- A call of the first of a chain of templates that hand their argument on has one result, the
    last command with the body of the call, inside the calls of the chain. -/
theorem evalCommand_forwarded (hchain : (names ++ [cmd]).IsChain reg.Forwards)
    (hwords : ∀ name ∈ names ++ [cmd], IsWord name ∧ name ≠ defineWord)
    (hcmd : reg.callee? cmd = none) (hdistinct : names.Nodup)
    (hidle : ∀ name ∈ names, name ∉ frames.map (·.name))
    (hfirst : (names ++ [cmd]).head? = some e.name) (hne : e.body ≠ [])
    (hlast : e.body.getLast? ≠ some '\n') :
    ∃ r : Expanded, evalCommand reg frames e = .ok [r] ∧ r.name = cmd ∧ r.body = e.body ∧
      r.stack.map (·.name) = frames.map (·.name) ++ names := by
  -- the induction is on the chain, and every template of it adds its call to the calls around
  induction names generalizing frames e with
  | nil =>
      obtain rfl : cmd = e.name := Option.some.inj hfirst
      exact ⟨_, evalCommand_plain hcmd, rfl, rfl, (List.append_nil _).symm⟩
  | cons name names ih =>
      obtain rfl : name = e.name := Option.some.inj hfirst
      obtain ⟨hnew, hrest⟩ := List.nodup_cons.mp hdistinct
      obtain ⟨next, path, hpath⟩ : ∃ next path, names ++ [cmd] = next :: path :=
        List.exists_cons_of_ne_nil (by simp)
      rw [List.cons_append] at hchain hwords
      have hforwards : reg.Forwards e.name next := by
        rw [hpath] at hchain
        exact (List.isChain_cons_cons.mp hchain).1
      obtain ⟨hword, -⟩ := hwords e.name List.mem_cons_self
      obtain ⟨hnext, hdefine⟩ := hwords next (by simp [hpath])
      have hfree : (activeNames frames).contains e.name = false := by
        simpa [activeNames] using hidle e.name List.mem_cons_self
      obtain ⟨e', hname, hbody, heval⟩ :=
        evalCommand_forwards hforwards hword hnext hdefine hfree hne hlast
      have hinner : ∀ name ∈ names,
          name ∉ (frames ++ [({ e with stack := frames } : Expanded)]).map (·.name) := by
        intro name hmem hactive
        rw [List.map_append, List.mem_append] at hactive
        rcases hactive with hactive | hactive
        · exact hidle name (List.mem_cons_of_mem _ hmem) hactive
        · obtain rfl : name = e.name := List.mem_singleton.mp hactive
          exact hnew hmem
      rw [← hbody] at hne hlast
      obtain ⟨r, hr, hcommand, hvalue, hstack⟩ := ih hchain.tail
        (fun name hmem => hwords name (List.mem_cons_of_mem _ hmem)) hrest hinner
        (by rw [hpath, hname]; rfl) hne hlast
      refine ⟨r, heval.trans hr, hcommand, hvalue.trans hbody, ?_⟩
      rw [hstack, List.map_append, List.append_assoc]
      rfl

end Forwarding

/-- Handing an argument on changes nothing, at any depth. Take any number of different templates,
    one at least, each with one parameter and one line of text that hands the argument on to the
    next of them, the last one to a command that is no template with text. Their names and the
    command are words, and none of them is that of a directive, but the command may be that of a
    splice. A call of the first template in a file, outside every call, with a body that is not
    empty and does not end with a line feed, whatever else stands in it, has exactly one result: the
    command with this body, inside the calls of all the templates in order. -/
theorem Expander.execute_forwarded {x : Expander} (hcalls : x.calls = {}) {names : List Text}
    {cmd : Text} (hdistinct : names.Nodup)
    (hwords : ∀ name ∈ names ++ [cmd], IsWord name)
    (hdirective : ∀ name ∈ names, name ≠ defineWord ∧ name ≠ includeWord)
    (hchain : (names ++ [cmd]).IsChain x.templates.Forwards)
    (hplain : x.templates.callee? cmd = none) (hcmd : cmd ≠ defineWord) (raw : Expression)
    (file : Text) (hname : names.head? = some raw.name) (hbody : raw.body ≠ [])
    (hlast : raw.body.getLast? ≠ some '\n') :
    ∃ r : Expanded, x.execute (.ofExpression raw file) = (.ok [r], x) ∧ r.name = cmd ∧
      r.body = raw.body ∧ r.stack.map (·.name) = names := by
  let e := Expanded.ofExpression raw file
  obtain ⟨hdefine, hinclude⟩ : e.name ≠ defineWord ∧ e.name ≠ includeWord :=
    hdirective raw.name (List.mem_of_head? hname)
  have hfirst : (names ++ [cmd]).head? = some raw.name := by
    rw [List.head?_append, hname]
    rfl
  have hnames : ∀ name ∈ names ++ [cmd], IsWord name ∧ name ≠ defineWord := by
    intro name hmem
    refine ⟨hwords name hmem, ?_⟩
    rcases List.mem_append.mp hmem with hmem | hmem
    · exact (hdirective name hmem).1
    · exact List.mem_singleton.mp hmem ▸ hcmd
  have hidle : ∀ name ∈ names, name ∉ ([] : List Expanded).map (·.name) :=
    fun _ _ => List.not_mem_nil
  obtain ⟨r, hr, hcommand, hvalue, hstack⟩ :=
    evalCommand_forwarded (e := e) hchain hnames hplain hdistinct hidle hfirst hbody hlast
  refine ⟨r, Prod.ext ?_ (x.execute_command hdefine hinclude), hcommand, hvalue, hstack⟩
  rw [execute, if_neg hdefine, if_neg hinclude, hcalls,
    expandFileCommand_eq_evalCommand _ (show e.stack = [] from rfl), hr]

/-- Blanks in front, references, a line feed and the mark of a comment come through two templates,
    also to a command that would be a splice in a file. -/
theorem Expander.execute_forwarded_hostile :
    let first : Template := ⟨"w1".toList, [['x']], "w_2 $x\n".toList, .atLine ['m'] 1⟩
    let second : Template := ⟨"w_2".toList, [['x']], "include $x\n".toList, .atLine ['m'] 3⟩
    let x : Expander := { fs := { files := [] }, options := {}, templates := ⟨[first, second]⟩ }
    let body := "\t $x $\x7by\x7d\n# z".toList
    ∃ r : Expanded, x.execute (.ofExpression ⟨5, [], "w1".toList, body⟩ ['m']) = (.ok [r], x) ∧
      r.name = includeWord ∧ r.body = body ∧
      r.stack.map (·.name) = ["w1".toList, "w_2".toList] := by
  intro first second x body
  have hword : ∀ name : Text, (name ≠ [] && name.all isNameChar) = true → IsWord name := by
    intro name hname
    obtain ⟨hne, hall⟩ := Bool.and_eq_true_iff.mp hname
    exact ⟨of_decide_eq_true hne, fun c hc => isNameChar_iff.mp (List.all_eq_true.mp hall c hc)⟩
  have hwords : ∀ name ∈ ["w1".toList, "w_2".toList] ++ [includeWord], IsWord name :=
    fun name hmem => hword name
      (List.all_eq_true.mp (show List.all _ (fun name => name ≠ [] && name.all isNameChar) = true
        from by decide) name hmem)
  have hrefers : Refers ['x'] ['x'] [] :=
    .word (fun hmark => absurd (isSingleName_iff.mpr hmark) (by decide))
      (hword ['x'] (by decide)).chars (fun _ hd => absurd hd (by simp))
  have hchain : (["w1".toList, "w_2".toList] ++ [includeWord]).IsChain x.templates.Forwards :=
    .cons_cons ⟨first, ['x'], rfl, hrefers, rfl, rfl⟩
      (.cons_cons ⟨second, ['x'], rfl, hrefers, rfl, rfl⟩ (.singleton _))
  exact execute_forwarded rfl (by decide) hwords (by decide) hchain rfl (by decide)
    ⟨5, [], "w1".toList, body⟩ ['m'] rfl (by decide) (by decide)

end LineScript
