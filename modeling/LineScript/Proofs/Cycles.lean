import LineScript.Proofs.Chains
import LineScript.Proofs.Contents
import LineScript.Proofs.Registering
import Mathlib.Data.List.Chain
import Mathlib.Logic.Relation

/-!
# Cycles of calls and of files

A run guards against two kinds of endless work: a template is not called while it is active, and a
file is not opened while it is open. Both guards look at names that are on a stack at the moment.
What they refuse can be told from the texts alone: a graph has an edge wherever one template's text
names another, or one file splices another, and the guards strike exactly at its cycles.

Two facts about graphs carry both halves. What stands on a stack is a path, so a name that is
refused closes a cycle (`cyclic_of_isChain`). And whatever passes lets everything behind it pass,
with one more name on the stack, so nothing that passes leads to a cycle (`Guarded.not_cyclic`).

* `expandFileCommand_callGraph`: calls.
* `drain_includeGraph`: files.
-/

namespace LineScript

/-! ## Graphs -/

section Graphs

variable {α : Type} {R : α → α → Prop}

/-- A cycle can be reached from `a`. -/
def Cyclic (R : α → α → Prop) (a : α) : Prop :=
  ∃ b, Relation.ReflTransGen R a b ∧ Relation.TransGen R b b

/-- A path that comes back to one of its points has met a cycle. -/
theorem cyclic_of_isChain {path : List α} {a b : α} (hchain : (path ++ [b]).IsChain R)
    (hhead : (path ++ [b]).head? = some a) (hback : b ∈ path) : Cyclic R a := by
  have hpairs : (path ++ [b]).Pairwise (Relation.TransGen R) :=
    (hchain.imp fun _ _ h => .single h).pairwise
  obtain ⟨-, -, hlast⟩ := List.pairwise_append.mp hpairs
  have hloop : Relation.TransGen R b b := hlast b hback b List.mem_cons_self
  obtain ⟨first, rest, rfl⟩ := List.exists_cons_of_ne_nil (List.ne_nil_of_mem hback)
  obtain rfl : first = a := Option.some.inj hhead
  exact ⟨b, (hlast first List.mem_cons_self b List.mem_cons_self).to_reflTransGen, hloop⟩

/-- What passes a guard is not on the stack, and lets everything that it leads to pass with one
    more name on the stack. -/
structure Guarded (R : α → α → Prop) (Passes : List α → α → Prop) : Prop where
  fresh : ∀ {stack a}, Passes stack a → a ∉ stack
  step : ∀ {stack a b}, Passes stack a → R a b → Passes (a :: stack) b

namespace Guarded

variable {Passes : List α → α → Prop} {stack : List α} {a b : α}

theorem path (h : Guarded R Passes) (hpass : Passes stack a) (hpath : Relation.ReflTransGen R a b) :
    ∃ deeper, stack ⊆ deeper ∧ Passes deeper b := by
  induction hpath with
  | refl => exact ⟨stack, List.Subset.refl stack, hpass⟩
  | tail hpath hedge ih =>
      obtain ⟨deeper, hsub, hmid⟩ := ih
      exact ⟨_, List.Subset.trans hsub (List.subset_cons_self _ _), h.step hmid hedge⟩

/-- Nothing that passes leads to a cycle. -/
theorem not_cyclic (h : Guarded R Passes) (hpass : Passes stack a) : ¬Cyclic R a := by
  rintro ⟨b, hpath, hloop⟩
  obtain ⟨outer, -, hfirst⟩ := h.path hpass hpath
  -- once round the cycle the point is on the stack already
  obtain ⟨next, hedge, hback⟩ := Relation.TransGen.head'_iff.mp hloop
  obtain ⟨inner, hsub, hsecond⟩ := h.path (h.step hfirst hedge) hback
  exact h.fresh hsecond (hsub List.mem_cons_self)

end Guarded

end Graphs

/-! ## Calls -/

namespace Registry

/-- The text of the template `a` has a command that calls the template `b`. -/
def Leads (reg : Registry) (a b : Text) : Prop :=
  ∃ t u, reg.callee? a = some t ∧ reg.callee? b = some u ∧ b ≠ [] ∧ b ≠ defineWord ∧
    ∃ line ∈ (readAll (Stream.ofText t.body)).1, line.name = b

/-- The names in the texts of the templates are spelled out: none has a `$`. -/
def Literal (reg : Registry) : Prop :=
  ∀ t ∈ reg.templates, ∀ line ∈ (readAll (Stream.ofText t.body)).1, '$' ∉ line.name

end Registry

/-- Text without a `$` is left alone. -/
theorem substitute_eq_ok {ε : Type} (lookup : Text → Except ε Text) {t : Text} (h : '$' ∉ t) :
    substitute lookup t = .ok t := by
  induction t with
  | nil => rw [substitute]; rfl
  | cons c t ih =>
      have hc : c ≠ '$' := fun heq => h (heq ▸ List.mem_cons_self)
      rw [substitute, if_neg hc, ih fun hmem => h (List.mem_cons_of_mem c hmem)]
      rfl

section Calls

variable {reg : Registry} {t : Template} {site : Expanded}

/-- A line whose name is spelled out keeps it, and does not become a definition. -/
theorem name_of_instantiate {args : Arguments} {line : Expression} {e : Expanded}
    (hname : '$' ∉ line.name) (h : instantiate t args site line = .ok e) :
    e.name = line.name ∧ e.name ≠ defineWord := by
  obtain ⟨name, body, hsame, -, hplain, rfl⟩ := instantiate_eq_ok h
  rw [substitute_eq_ok _ hname] at hsame
  exact ⟨(Except.ok.inj hsame).symm, hplain⟩

/-- If no cycle can be reached, no command ends in a recursion: the calls that it is in are a path
    from the outermost one. -/
theorem settles_evalCommand_acyclic {root : Text} (hliteral : reg.Literal)
    (hacyclic : ¬Cyclic reg.Leads root) (frames : List Expanded) (e : Expanded)
    (hpath : e.name ≠ [] → (reg.callee? e.name).isSome →
      (frames.map (·.name) ++ [e.name]).IsChain reg.Leads ∧
        (frames.map (·.name) ++ [e.name]).head? = some root) :
    Settles (fun results => ∀ r ∈ results, True)
      (fun error => ∀ name trace, error.cause ≠ .recursion name trace)
      (evalCommand reg frames e) := by
  induction frames, e using evalCommand_induction reg with
  | self frames e hself =>
      rw [evalCommand_self hself]
      exact fun _ _ => trivial
  | active frames e t hname hcallee hactive =>
      obtain ⟨hchain, hhead⟩ := hpath hname (by rw [hcallee]; rfl)
      have hback : e.name ∈ frames.map (·.name) := by
        simpa [activeNames] using hactive
      exact absurd (cyclic_of_isChain hchain hhead hback) hacyclic
  | call frames e t hname hcallee hidle ih =>
      obtain ⟨hchain, hhead⟩ := hpath hname (by rw [hcallee]; rfl)
      obtain ⟨hmem, -, -⟩ := Registry.callee?_eq_some hcallee
      refine settles_evalCommand_call hname hcallee hidle ?_ ?_
      · intro error herror name trace hcause
        cases herror <;> cases hcause
      · -- a line of the text prolongs the path by the name that it spells out
        intro args line e' hline hinstance
        obtain ⟨hsame, hplain⟩ := name_of_instantiate (hliteral t hmem line hline) hinstance
        refine ih e' fun hname' hcallee' => ?_
        obtain ⟨u, hu⟩ := Option.isSome_iff_exists.mp hcallee'
        have hedge : reg.Leads e.name e'.name :=
          ⟨t, u, hcallee, hu, hname', hplain, line, hline, hsame.symm⟩
        rw [List.map_append, List.map_singleton]
        refine ⟨List.isChain_append.mpr ⟨hchain, List.isChain_singleton _, ?_⟩, ?_⟩
        · intro x hx y hy
          rw [List.getLast?_concat] at hx
          obtain rfl := Option.some.inj hx
          obtain rfl := Option.some.inj hy
          exact hedge
        · rw [List.head?_append, hhead]
          rfl

/-- A call passes if it succeeds. -/
def CallPasses (reg : Registry) (active : List Text) (name : Text) : Prop :=
  name ≠ [] ∧ ∃ frames e t results, activeNames frames = active ∧ e.name = name ∧
    reg.callee? name = some t ∧ evalCommand reg frames e = .ok results

/-- Every line of a text is carried out, so a call that succeeds has only calls in its text that
    succeed. -/
theorem guarded_callPasses (hliteral : reg.Literal) : Guarded reg.Leads (CallPasses reg) := by
  constructor
  · rintro _ _ ⟨hname, frames, e, t, results, rfl, rfl, hcallee, hok⟩ hactive
    rw [evalCommand_active hname hcallee (List.contains_iff_mem.mpr hactive)] at hok
    cases hok
  · rintro _ _ b ⟨hname, frames, e, t, results, rfl, rfl, hcallee, hok⟩
      ⟨t', u, hcallee', hu, hnext, hplain, line, hline, rfl⟩
    obtain rfl := Option.some.inj (hcallee.symm.trans hcallee')
    obtain ⟨hmem, -, -⟩ := Registry.callee?_eq_some hcallee
    cases hactive : (activeNames frames).contains e.name with
    | true =>
        rw [evalCommand_active hname hcallee hactive] at hok
        cases hok
    | false =>
        rw [evalCommand_call hname hcallee hactive] at hok
        obtain ⟨args, -, hok⟩ := exists_of_bind_eq_ok hok
        obtain ⟨lines, hlines, -⟩ := exists_of_bind_eq_ok hok
        obtain ⟨found, hfound⟩ := exists_of_mapM_eq_ok hlines line hline
        obtain ⟨e', he', hnested⟩ := exists_of_bind_eq_ok hfound
        obtain ⟨hkept, -⟩ := name_of_instantiate (hliteral t hmem line hline) he'
        exact ⟨hnext, frames ++ [{ e with stack := frames }], e', u, found, activeNames_append _ _,
          hkept, hu, hnested⟩

/-- The calls that a call stands in do not matter outside every call. -/
theorem expandFileCommand_eq_of_call (hname : site.name ≠ [])
    (hcallee : reg.callee? site.name = some t) :
    expandFileCommand reg site {} = (evalCommand reg [] site, {}) := by
  have hclear : expandFileCommand reg site {} =
      expandFileCommand reg { site with stack := [] } {} := by
    simp only [expandFileCommand, expandCommand, if_neg hname, hcallee, expandCall_unfold]
  have hsame : evalCommand reg [] { site with stack := [] } = evalCommand reg [] site := by
    rw [evalCommand_call (e := { site with stack := [] }) hname hcallee rfl,
      evalCommand_call hname hcallee rfl]
  rw [hclear, expandFileCommand_eq_evalCommand reg rfl, hsame]

/-- A call that fails stops the run that comes to it before anything of it is handed out. -/
theorem Expander.Faces.read_of_error {x : Expander} {error : ExpansionError} (h : x.Faces site)
    (hdefine : site.name ≠ defineWord) (hinclude : site.name ≠ includeWord)
    (hfail : expandFileCommand x.templates site x.calls = (.error error, x.calls)) :
    ∃ y, x.read = (.error error, y) ∧ y.pending = [] := by
  refine h.read_of_failure fun files => ⟨{ x with files }, ?_, rfl⟩
  rw [execute, if_neg hdefine, if_neg hinclude, hfail]

/-- Recursion is reported exactly for cyclic call graphs. For every set of templates whose texts
    spell out the names of their commands, and every call outside all others, whatever its
    arguments: if no cycle of calls can be reached from its template, it does not fail with a
    recursion; if one can, it fails, and a run that comes to it hands out nothing of it. -/
theorem expandFileCommand_callGraph (hliteral : reg.Literal) (hname : site.name ≠ [])
    (hcallee : reg.callee? site.name = some t) :
    (¬Cyclic reg.Leads site.name → ∀ error, (expandFileCommand reg site {}).1 = .error error →
      ∀ name trace, error.cause ≠ .recursion name trace) ∧
    (Cyclic reg.Leads site.name → ∃ error, expandFileCommand reg site {} = (.error error, {}) ∧
      ∀ x : Expander, x.templates = reg → x.calls = {} → x.Faces site →
        site.name ≠ defineWord → site.name ≠ includeWord →
        ∃ y, x.read = (.error error, y) ∧ y.pending = []) := by
  rw [expandFileCommand_eq_of_call hname hcallee]
  constructor
  · intro hacyclic error herror
    have hsettles := settles_evalCommand_acyclic hliteral hacyclic [] site
      fun _ _ => ⟨List.isChain_singleton _, rfl⟩
    rw [show evalCommand reg [] site = .error error from herror] at hsettles
    exact hsettles
  · intro hcyclic
    cases heval : evalCommand reg [] site with
    | ok results =>
        have hpass : CallPasses reg [] site.name :=
          ⟨hname, [], site, t, results, rfl, rfl, hcallee, heval⟩
        exact absurd hcyclic ((guarded_callPasses hliteral).not_cyclic hpass)
    | error error =>
        refine ⟨error, rfl, ?_⟩
        intro x htemplates hcalls hfaces hdefine hinclude
        refine hfaces.read_of_error hdefine hinclude ?_
        rw [htemplates, hcalls, expandFileCommand_eq_of_call hname hcallee, heval]

/-- The call of `a` fails whose text calls `b`, whose text calls `a`; the call of `d` whose text
    calls `c` twice does not fail with a recursion. -/
theorem expandFileCommand_callGraph_loop_and_diamond :
    let template := fun (name : Char) (body : String) =>
      ({ name := [name], params := [['x']], body := body.toList, source := {} } : Template)
    let reg : Registry :=
      ⟨[template 'a' "b $x\n", template 'b' "a $x\n", template 'c' "say $x\n",
        template 'd' "c $x\nc $x\n"]⟩
    (∃ error, expandFileCommand reg { name := ['a'], body := ['1'] } {} = (.error error, {})) ∧
    ∀ error, (expandFileCommand reg { name := ['d'], body := ['1'] } {}).1 = .error error →
      ∀ name trace, error.cause ≠ .recursion name trace := by
  intro template reg
  have ha : readAll (Stream.ofText "b $x\n".toList) = ([⟨1, [], ['b'], ['$', 'x']⟩], none) := by
    decide +kernel
  have hb : readAll (Stream.ofText "a $x\n".toList) = ([⟨1, [], ['a'], ['$', 'x']⟩], none) := by
    decide +kernel
  have hc : readAll (Stream.ofText "say $x\n".toList) =
      ([⟨1, [], ['s', 'a', 'y'], ['$', 'x']⟩], none) := by
    decide +kernel
  have hd : readAll (Stream.ofText "c $x\nc $x\n".toList) =
      ([⟨1, [], ['c'], ['$', 'x']⟩, ⟨2, [], ['c'], ['$', 'x']⟩], none) := by
    decide +kernel
  have hliteral : reg.Literal := by
    intro t ht
    simp only [reg, List.mem_cons, List.not_mem_nil, or_false] at ht
    rcases ht with rfl | rfl | rfl | rfl
    · rw [show (template 'a' "b $x\n").body = "b $x\n".toList from rfl, ha]; decide
    · rw [show (template 'b' "a $x\n").body = "a $x\n".toList from rfl, hb]; decide
    · rw [show (template 'c' "say $x\n").body = "say $x\n".toList from rfl, hc]; decide
    · rw [show (template 'd' "c $x\nc $x\n").body = "c $x\nc $x\n".toList from rfl, hd]; decide
  constructor
  · have hfirst : reg.Leads ['a'] ['b'] := by
      refine ⟨template 'a' "b $x\n", template 'b' "a $x\n", rfl, rfl, by decide, by decide,
        ⟨1, [], ['b'], ['$', 'x']⟩, ?_, rfl⟩
      show _ ∈ (readAll (Stream.ofText "b $x\n".toList)).1
      rw [ha]
      exact List.mem_cons_self
    have hback : reg.Leads ['b'] ['a'] := by
      refine ⟨template 'b' "a $x\n", template 'a' "b $x\n", rfl, rfl, by decide, by decide,
        ⟨1, [], ['a'], ['$', 'x']⟩, ?_, rfl⟩
      show _ ∈ (readAll (Stream.ofText "a $x\n".toList)).1
      rw [hb]
      exact List.mem_cons_self
    have hsite : ({ name := ['a'], body := ['1'] } : Expanded).name ≠ [] := by decide
    obtain ⟨error, herror, -⟩ := (expandFileCommand_callGraph hliteral hsite rfl).2
      ⟨['a'], .refl, (Relation.TransGen.single hfirst).tail hback⟩
    exact ⟨error, herror⟩
  · have hsite : ({ name := ['d'], body := ['1'] } : Expanded).name ≠ [] := by decide
    refine (expandFileCommand_callGraph hliteral hsite rfl).1 ?_
    have hlast : ∀ name, ¬reg.Leads ['c'] name := by
      rintro name ⟨t, u, ht, hu, -, -, line, hline, rfl⟩
      obtain rfl := Option.some.inj ht
      rw [show (template 'c' "say $x\n").body = "say $x\n".toList from rfl, hc] at hline
      rw [List.mem_singleton.mp hline] at hu
      cases hu
    have honly : ∀ name, reg.Leads ['d'] name → name = ['c'] := by
      rintro name ⟨t, u, ht, -, -, -, line, hline, rfl⟩
      obtain rfl := Option.some.inj ht
      rw [show (template 'd' "c $x\nc $x\n").body = "c $x\nc $x\n".toList from rfl, hd] at hline
      rcases List.mem_cons.mp hline with rfl | hline
      · rfl
      · rw [List.mem_singleton.mp hline]
    rintro ⟨b, hpath, hloop⟩
    obtain ⟨next, hedge, hround⟩ := Relation.TransGen.head'_iff.mp hloop
    rcases Relation.ReflTransGen.cases_head hpath with rfl | ⟨mid, hmid, hrest⟩
    · obtain rfl := honly next hedge
      rcases Relation.ReflTransGen.cases_head hround with heq | ⟨mid, hmid, -⟩
      · exact absurd heq (by decide)
      · exact hlast mid hmid
    · obtain rfl := honly mid hmid
      rcases Relation.ReflTransGen.cases_head hrest with rfl | ⟨mid, hmid, -⟩
      · exact hlast next hedge
      · exact hlast mid hmid

end Calls

/-! ## Files -/

/-- The file `f` splices the file `g`, and both open. -/
def FileSystem.Includes (fs : FileSystem) (o : Options) (f g : Text) : Prop :=
  ∃ stream inner, fs.access f = .ok stream ∧ fs.access g = .ok inner ∧
    ∃ raw ∈ (readAll stream).1, raw.name = includeWord ∧ includeTarget o raw.body = .ok g

section Files

variable {fs : FileSystem} {o : Options} {opened outer : List Text} {file target entry : Text}
  {stream : Stream} {raw : Expression} {raws : List Expression} {reg last : Registry}

/-- An evaluation that meets no error splices only files that are not open, and evaluates each of
    them without an error. -/
theorem Registers.spliced (h : Registers fs o opened file raws reg last) (hmem : raw ∈ raws)
    (hname : raw.name = includeWord) (htarget : includeTarget o raw.body = .ok target) :
    target ∉ opened ∧ ∃ stream reg last, fs.access target = .ok stream ∧
      Registers fs o (target :: opened) target (readAll stream).1 reg last := by
  induction h with
  | done => cases hmem
  | define hdefine hread hnew hrest ih =>
      rcases List.mem_cons.mp hmem with rfl | hmem
      · exact absurd (hdefine.symm.trans hname) defineWord_ne_includeWord
      · exact ih hmem
  | splice hinclude htarget' hclosed haccess hwell hinner hrest ihinner ihrest =>
      rcases List.mem_cons.mp hmem with rfl | hmem
      · obtain rfl := Except.ok.inj (htarget.symm.trans htarget')
        refine ⟨?_, _, _, _, haccess, hinner⟩
        simpa using hclosed
      · exact ihrest hmem
  | command hdefine hinclude hrest ih =>
      rcases List.mem_cons.mp hmem with rfl | hmem
      · exact absurd hname hinclude
      · exact ih hmem

/-- A file passes if it is evaluated without an error. -/
def FilePasses (fs : FileSystem) (o : Options) (opened : List Text) (file : Text) : Prop :=
  file ∉ opened ∧ ∃ stream reg last, fs.access file = .ok stream ∧
    Registers fs o (file :: opened) file (readAll stream).1 reg last

theorem guarded_filePasses (fs : FileSystem) (o : Options) :
    Guarded (fs.Includes o) (FilePasses fs o) := by
  constructor
  · exact fun h => h.1
  · rintro opened file target ⟨-, stream, reg, last, haccess, hregisters⟩
      ⟨stream', inner, haccess', -, raw, hraw, hname, htarget⟩
    obtain rfl := Except.ok.inj (haccess.symm.trans haccess')
    exact hregisters.spliced hraw hname htarget

/-- The open files are a path from the script. -/
structure OpenPath (fs : FileSystem) (o : Options) (entry : Text) (opened : List Text) : Prop where
  starts : opened.reverse.head? = some entry
  linked : opened.reverse.IsChain (fs.Includes o)
  opens : ∀ file ∈ opened, ∃ stream, fs.access file = .ok stream

/-- One more file that the innermost one splices, open or not, prolongs the path. -/
theorem OpenPath.splice (h : OpenPath fs o entry (file :: outer))
    (hstream : fs.access file = .ok stream) (hraw : raw ∈ (readAll stream).1)
    (hname : raw.name = includeWord) (htarget : includeTarget o raw.body = .ok target)
    (hopens : ∃ inner, fs.access target = .ok inner) :
    OpenPath fs o entry (target :: file :: outer) := by
  obtain ⟨inner, hinner⟩ := hopens
  have hedge : fs.Includes o file target :=
    ⟨stream, inner, hstream, hinner, raw, hraw, hname, htarget⟩
  constructor
  · rw [List.reverse_cons, List.head?_append, h.starts]
    rfl
  · rw [List.reverse_cons]
    refine List.isChain_append.mpr ⟨h.linked, List.isChain_singleton _, ?_⟩
    intro x hx y hy
    rw [List.getLast?_reverse] at hx
    obtain rfl := Option.some.inj hx
    obtain rfl := Option.some.inj hy
    exact hedge
  · intro f hf
    rcases List.mem_cons.mp hf with rfl | hf
    · exact ⟨inner, hinner⟩
    · exact h.opens f hf

/-- A command fails because of a malformed text or because of a call. -/
theorem settles_evalCommand_family (reg : Registry) (frames : List Expanded) (e : Expanded) :
    Settles (fun results => ∀ r ∈ results, True)
      (fun error => error.cause.family = .grammar ∨ error.cause.family = .invocation)
      (evalCommand reg frames e) := by
  induction frames, e using evalCommand_induction reg with
  | self frames e hself =>
      rw [evalCommand_self hself]
      exact fun _ _ => trivial
  | active frames e t hname hcallee hactive =>
      rw [evalCommand_active hname hcallee hactive]
      exact .inr rfl
  | call frames e t hname hcallee hidle ih =>
      refine settles_evalCommand_call hname hcallee hidle ?_ fun args line e' _ _ => ih e'
      intro error herror
      cases herror with
      | malformed => exact .inl rfl
      | arguments => exact .inr rfl
      | parameter => exact .inr rfl
      | definition => exact .inr rfl

/-- An expression ends in a cycle of files if it splices a file that is open, or one whose
    evaluation ends so. -/
theorem evalExpression_cycle {e site : Expanded} {chain : List Text}
    (h : (evalExpression fs o opened e reg).error = some ⟨site, .includeCycle chain⟩) :
    e.name = includeWord ∧ ∃ target, includeTarget o e.body = .ok target ∧
      ((target ∈ opened ∧ chain = opened.reverse ++ [target]) ∨
        ∃ stream, opened.contains target = false ∧ fs.access target = .ok stream ∧
          (evalExpressions fs o (target :: opened) target (readAll stream).2 (readAll stream).1
            reg).error = some ⟨site, .includeCycle chain⟩) := by
  by_cases hdefine : e.name = defineWord
  · rw [evalExpression, if_pos hdefine] at h
    have hsettles := settles_define reg e
    cases hresult : Template.ofDefinition e >>= reg.define with
    | ok reg' => rw [hresult] at h; cases h
    | error cause =>
        rw [hresult] at h hsettles
        obtain rfl : cause = .includeCycle chain :=
          congrArg ExpansionError.cause (Option.some.inj h)
        cases hsettles
  by_cases hinclude : e.name = includeWord
  · refine ⟨hinclude, ?_⟩
    cases htarget : includeTarget o e.body with
    | error cause =>
        have hsettles := settles_includeTarget o e.body
        rw [htarget] at hsettles
        rw [evalExpression_unnamed hinclude htarget] at h
        exact absurd (congrArg ExpansionError.cause (Option.some.inj h)) (hsettles.2 chain)
    | ok target =>
        refine ⟨target, rfl, ?_⟩
        cases hopen : opened.contains target with
        | true =>
            refine .inl ⟨List.contains_iff_mem.mp hopen, ?_⟩
            rw [evalExpression_reopened hinclude htarget hopen] at h
            have hcause := congrArg ExpansionError.cause (Option.some.inj h)
            exact (Cause.includeCycle.inj hcause).symm
        | false =>
            cases haccess : fs.access target with
            | error error =>
                rw [evalExpression_unopened hinclude htarget hopen haccess] at h
                cases congrArg ExpansionError.cause (Option.some.inj h)
            | ok stream =>
                rw [evalExpression_opened hinclude htarget hopen haccess] at h
                exact .inr ⟨stream, rfl, rfl, h⟩
  · rw [evalExpression_command hdefine hinclude] at h
    have hsettles := settles_evalCommand_family reg [] e
    cases hresult : evalCommand reg [] e with
    | ok results => rw [hresult] at h; cases h
    | error error =>
        rw [hresult] at h hsettles
        obtain rfl := Option.some.inj h
        rcases hsettles with hfamily | hfamily <;> cases hfamily

/-- The chain of a cycle of files starts with the script, each file splices the next one, and the
    last one is among those before it. -/
structure ClosedChain (fs : FileSystem) (o : Options) (entry : Text) (chain : List Text) :
    Prop where
  starts : chain.head? = some entry
  linked : chain.IsChain (fs.Includes o)
  closed : ∃ last ∈ chain.getLast?, last ∈ chain.dropLast

/-- If an evaluation ends in a cycle of files, its chain is closed. -/
theorem closedChain_of_evalExpressions {outer : List Text} {file : Text} {stream : Stream}
    {raws : List Expression} {malformed : Option SyntaxError} {reg : Registry} {site : Expanded}
    {chain : List Text} (hpath : OpenPath fs o entry (file :: outer))
    (haccess : fs.access file = .ok stream) (hraws : ∀ raw ∈ raws, raw ∈ (readAll stream).1)
    (h : (evalExpressions fs o (file :: outer) file malformed raws reg).error =
      some ⟨site, .includeCycle chain⟩) : ClosedChain fs o entry chain := by
  match raws, malformed with
  | [], none =>
      rw [evalExpressions] at h
      cases h
  | [], some error =>
      rw [evalExpressions] at h
      cases congrArg ExpansionError.cause (Option.some.inj h)
  | raw :: raws, malformed =>
      rw [evalExpressions] at h
      rcases Evaluation.error_andThen_some h with hfirst | ⟨-, hrest⟩
      · obtain ⟨hname, target, htarget, ⟨hopen, rfl⟩ | ⟨inner, hclosed, hinner, heval⟩⟩ :=
          evalExpression_cycle hfirst
        · have hlonger := hpath.splice haccess (hraws raw List.mem_cons_self) hname htarget
            (hpath.opens target hopen)
          rw [← List.reverse_cons]
          refine ⟨hlonger.starts, hlonger.linked, target, ?_, ?_⟩
          · rw [List.getLast?_reverse]
            rfl
          · rw [List.reverse_cons, List.dropLast_concat]
            exact List.mem_reverse.mpr hopen
        · exact closedChain_of_evalExpressions
            (hpath.splice haccess (hraws raw List.mem_cons_self) hname htarget ⟨inner, hinner⟩)
            hinner (fun _ hraw => hraw) heval
      · exact closedChain_of_evalExpressions hpath haccess
          (fun raw' hraw' => hraws raw' (List.mem_cons_of_mem raw hraw')) hrest
termination_by (closedNames fs (file :: outer), raws.length)
decreasing_by
  · exact .left _ _ (closedNames_cons_lt (FileSystem.mem_names_of_access hinner) hclosed)
  · exact .right _ (Nat.lt_succ_self _)

/-- Cycles of files are reported exactly for cyclic include graphs. For every file system and fixed
    settings, and every script that opens: if no cycle of splices can be reached from it, its run
    does not fail with a cycle of files; if one can, its run ends with an error and is never
    finished; and whenever a cycle of files is reported, its chain starts with the script, each
    file of it splices the next, and the last one occurs before. -/
theorem Expander.drain_includeGraph (fs : FileSystem) (o : Options)
    (haccess : fs.access entry = .ok stream) :
    let x := start fs o entry
    (¬Cyclic (fs.Includes o) entry →
      ∀ site chain, x.drain.2.1 ≠ some ⟨site, .includeCycle chain⟩) ∧
    (Cyclic (fs.Includes o) entry →
      (∃ error, x.drain.2.1 = some error ∧ x.drain.2.2.status = .poisoned error) ∧
        ∀ n, (x.afterReads n).status ≠ .finished) ∧
    ∀ site chain, x.drain.2.1 = some ⟨site, .includeCycle chain⟩ →
      chain.head? = some entry ∧ chain.IsChain (fs.Includes o) ∧
        ∃ last ∈ chain.getLast?, last ∈ chain.dropLast := by
  intro x
  obtain ⟨-, herror, -⟩ := drain_start_of_access (o := o) haccess
  rw [evaluate, haccess] at herror
  have hstart : OpenPath fs o entry [entry] := by
    refine ⟨rfl, List.isChain_singleton entry, ?_⟩
    intro f hf
    rw [List.mem_singleton.mp hf]
    exact ⟨stream, haccess⟩
  have hclosed : ∀ site chain, x.drain.2.1 = some ⟨site, .includeCycle chain⟩ →
      ClosedChain fs o entry chain := by
    intro site chain hcycle
    rw [herror] at hcycle
    exact closedChain_of_evalExpressions hstart haccess (fun _ hraw => hraw) hcycle
  refine ⟨?_, ?_, ?_⟩
  · intro hacyclic site chain hcycle
    obtain ⟨hhead, hchain, last, hlast, hback⟩ := hclosed site chain hcycle
    rw [← List.dropLast_append_getLast? last hlast] at hhead hchain
    exact hacyclic (cyclic_of_isChain hchain hhead hback)
  · intro hcyclic
    have hfails : x.drain.2.1 ≠ none := by
      intro hnone
      rw [herror] at hnone
      obtain ⟨-, hregisters⟩ := registers_of_evalExpressions hnone
      have hpass : FilePasses fs o [] entry :=
        ⟨List.not_mem_nil, stream, _, _, haccess, hregisters⟩
      exact (guarded_filePasses fs o).not_cyclic hpass hcyclic
    obtain ⟨error, hsome⟩ := Option.ne_none_iff_exists'.mp hfails
    exact ⟨⟨error, hsome, poisoned_of_error_eq_some hsome⟩,
      fun n hfinished => hfails (error_eq_none_of_afterReads hfinished)⟩
  · intro site chain hcycle
    obtain ⟨hhead, hchain, hlast⟩ := hclosed site chain hcycle
    exact ⟨hhead, hchain, hlast⟩

/-- Two files each of which ends with a splice of the other are a cycle that ends the run. -/
theorem Expander.drain_includeGraph_pair :
    let fs : FileSystem := .ofContents [(['m'], encodeUtf8 "include b\n".toList),
      (['b'], encodeUtf8 "say hi\ninclude m\n".toList)]
    let x := start fs { extension := none } ['m']
    (∃ error, x.drain.2.1 = some error ∧ x.drain.2.2.status = .poisoned error) ∧
      ∀ n, (x.afterReads n).status ≠ .finished := by
  intro fs x
  have hm : fs.access ['m'] = .ok (.ofBytes (encodeUtf8 "include b\n".toList) none) := rfl
  have hb : fs.access ['b'] = .ok (.ofBytes (encodeUtf8 "say hi\ninclude m\n".toList) none) := rfl
  have hscript : readAll (.ofBytes (encodeUtf8 "include b\n".toList) none) =
      ([⟨1, [], includeWord, ['b']⟩], none) := by decide +kernel
  have hlibrary : readAll (.ofBytes (encodeUtf8 "say hi\ninclude m\n".toList) none) =
      ([⟨1, [], ['s', 'a', 'y'], ['h', 'i']⟩, ⟨2, [], includeWord, ['m']⟩], none) := by
    decide +kernel
  have htarget : ∀ name, splitArguments none [name] = [[name]] →
      [name].contains '/' = false → Text.stripNewline [name] = [name] →
      includeTarget { extension := none } [name] = .ok [name] := by
    intro name hfields hslash hstrip
    rw [includeTarget, Arguments.ofBody, hfields]
    simp only [Arguments.size, Arguments.get, List.length_singleton, List.getElem?_cons_zero,
      Option.getD_some, hstrip, hslash]
    rfl
  have hthere : fs.Includes { extension := none } ['m'] ['b'] :=
    ⟨_, _, hm, hb, ⟨1, [], includeWord, ['b']⟩, by rw [hscript]; exact List.mem_cons_self, rfl,
      htarget 'b' (by decide +kernel) rfl rfl⟩
  have hback : fs.Includes { extension := none } ['b'] ['m'] :=
    ⟨_, _, hb, hm, ⟨2, [], includeWord, ['m']⟩,
      by rw [hlibrary]; exact List.mem_cons_of_mem _ List.mem_cons_self, rfl,
      htarget 'm' (by decide +kernel) rfl rfl⟩
  exact (drain_includeGraph fs { extension := none } hm).2.1
    ⟨['m'], .refl, (Relation.TransGen.single hthere).tail hback⟩

end Files

end LineScript
