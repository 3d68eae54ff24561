import LineScript.Proofs.Rereading
import LineScript.Script.Arguments
import Mathlib.Data.List.Chain

/-!
# Arguments are fields

Arguments are split off one at a time: the loop cuts a field, drops the blanks behind it and goes
on with what is left, and the last argument that a limit allows takes all of it. A text as a whole
has one layout, blanks and fields by turns, and the arguments can be read off it: the fields, of
which the last may be the text from there to the end.

* `Run`, `Layout`: fields and the blanks around them.
* `Layout.exists_text_eq`, `Layout.text_injective`: every text has one layout.
* `splitArguments_runs`: the arguments of a text that starts with a field.
* `splitArguments_eq_fields`: the arguments of every text, under every limit.
-/

namespace LineScript

/-! ## Layouts -/

/-- A field and the blanks behind it. -/
@[ext]
structure Run where
  field : Text
  gap : Text
  ne_nil : field ≠ []
  solid : ∀ c ∈ field, isBlank c = false
  blank : ∀ c ∈ gap, isBlank c = true

/-- The text of a run. -/
def Run.text (r : Run) : Text := r.field ++ r.gap

/-- Only the last run may have no blanks behind it. -/
abbrev Apart (rs : List Run) : Prop := rs.IsChain fun r _ => r.gap ≠ []

/-- Blanks and fields by turns. The blanks before the first field and behind the last one may be
    missing, those between two fields may not, so the fields are the longest runs of characters that
    are no blanks. -/
@[ext]
structure Layout where
  lead : Text
  runs : List Run
  blank : ∀ c ∈ lead, isBlank c = true
  apart : Apart runs

namespace Layout

/-- The text that is laid out. -/
def text (l : Layout) : Text := l.lead ++ l.runs.flatMap Run.text

/-- Its fields. -/
def fields (l : Layout) : List Text := l.runs.map Run.field

/-- The text from field number `i` on, counted from 0, to the end. -/
def textFrom (l : Layout) (i : Nat) : Text := (l.runs.drop i).flatMap Run.text

end Layout

section Ends

variable {r : Run} {rs : List Run}

/-- Runs start with a field. -/
theorem head?_runs (rs : List Run) : ∀ c ∈ (rs.flatMap Run.text).head?, isBlank c = false := by
  intro c hc
  cases rs with
  | nil => cases hc
  | cons r rs =>
      obtain ⟨d, field, hfield⟩ := List.exists_cons_of_ne_nil r.ne_nil
      rw [List.flatMap_cons, Run.text, hfield] at hc
      obtain rfl := Option.some.inj hc
      exact r.solid d (by rw [hfield]; exact List.mem_cons_self)

/-- A blank follows a field, unless it is at the end. -/
theorem head?_gap (h : Apart (r :: rs)) :
    ∀ c ∈ (r.gap ++ rs.flatMap Run.text).head?, isBlank c = true := by
  intro c hc
  cases hgap : r.gap with
  | nil =>
      cases rs with
      | nil =>
          rw [hgap] at hc
          cases hc
      | cons r' rs => exact absurd hgap (List.isChain_cons_cons.mp h).1
  | cons d gap =>
      rw [hgap] at hc
      obtain rfl := Option.some.inj hc
      exact r.blank d (by rw [hgap]; exact List.mem_cons_self)

end Ends

/-! ## Every text has one layout -/

/-- The first characters of a kind are found again in front of one that is not of the kind. -/
theorem span_append {p : Char → Bool} {as bs : Text} (has : ∀ c ∈ as, p c = true)
    (hbs : ∀ c ∈ bs.head?, p c = false) :
    (as ++ bs).takeWhile p = as ∧ (as ++ bs).dropWhile p = bs := by
  rw [List.takeWhile_append_of_pos has, List.dropWhile_append_of_pos has]
  cases bs with
  | nil => exact ⟨List.append_nil as, rfl⟩
  | cons b bs =>
      have hb : ¬p b = true := by
        rw [hbs b rfl]
        exact Bool.false_ne_true
      rw [List.takeWhile_cons_of_neg hb, List.dropWhile_cons_of_neg hb]
      exact ⟨List.append_nil as, rfl⟩

/-- A text falls into its first characters of a kind and the rest in one way. -/
theorem append_inj_of_span {p : Char → Bool} {as bs as' bs' : Text}
    (has : ∀ c ∈ as, p c = true) (hbs : ∀ c ∈ bs.head?, p c = false)
    (has' : ∀ c ∈ as', p c = true) (hbs' : ∀ c ∈ bs'.head?, p c = false)
    (h : as ++ bs = as' ++ bs') : as = as' ∧ bs = bs' := by
  obtain ⟨htake, hdrop⟩ := span_append has hbs
  obtain ⟨htake', hdrop'⟩ := span_append has' hbs'
  rw [h] at htake hdrop
  exact ⟨htake.symm.trans htake', hdrop.symm.trans hdrop'⟩

/-- Blanks and the runs behind them are found again in their text. -/
theorem runs_injective {gap gap' : Text} {rs rs' : List Run}
    (hgap : ∀ c ∈ gap, isBlank c = true) (hgap' : ∀ c ∈ gap', isBlank c = true)
    (hrs : Apart rs) (hrs' : Apart rs')
    (h : gap ++ rs.flatMap Run.text = gap' ++ rs'.flatMap Run.text) : gap = gap' ∧ rs = rs' := by
  induction rs generalizing gap gap' rs' with
  | nil =>
      obtain ⟨rfl, htext⟩ := append_inj_of_span hgap (head?_runs []) hgap' (head?_runs rs') h
      cases rs' with
      | nil => exact ⟨rfl, rfl⟩
      | cons r' rs' =>
          rw [List.flatMap_nil, List.flatMap_cons, Run.text, List.append_assoc] at htext
          exact absurd (List.append_eq_nil_iff.mp htext.symm).1 r'.ne_nil
  | cons r rs ih =>
      obtain ⟨rfl, htext⟩ := append_inj_of_span hgap (head?_runs _) hgap' (head?_runs rs') h
      cases rs' with
      | nil =>
          rw [List.flatMap_nil, List.flatMap_cons, Run.text, List.append_assoc] at htext
          exact absurd (List.append_eq_nil_iff.mp htext).1 r.ne_nil
      | cons r' rs' =>
          rw [List.flatMap_cons, List.flatMap_cons, Run.text, Run.text, List.append_assoc,
            List.append_assoc] at htext
          -- the field ends where the first blank stands, and the blanks lead the runs behind them
          have hsolid : ∀ r : Run, ∀ c ∈ r.field, (!isBlank c) = true := by
            intro r c hc
            rw [r.solid c hc]
            rfl
          have hstop : ∀ {r : Run} {rs : List Run}, Apart (r :: rs) →
              ∀ c ∈ (r.gap ++ rs.flatMap Run.text).head?, (!isBlank c) = false := by
            intro r rs hchain c hc
            rw [head?_gap hchain c hc]
            rfl
          obtain ⟨hfield, hbehind⟩ := append_inj_of_span (hsolid r) (hstop hrs) (hsolid r')
            (hstop hrs') htext
          obtain ⟨hgaps, rfl⟩ := ih r.blank r'.blank hrs.tail hrs'.tail hbehind
          exact ⟨rfl, congrArg (· :: rs) (Run.ext hfield hgaps)⟩

namespace Layout

/-- Two layouts of one text are the same. -/
theorem text_injective {l l' : Layout} (h : l.text = l'.text) : l = l' := by
  obtain ⟨hlead, hruns⟩ := runs_injective l.blank l'.blank l.apart l'.apart h
  exact Layout.ext hlead hruns

/-- Every text can be laid out. -/
theorem exists_text_eq (s : Text) : ∃ l : Layout, l.text = s := by
  induction s with
  | nil => exact ⟨⟨[], [], fun _ hc => absurd hc List.not_mem_nil, .nil⟩, rfl⟩
  | cons c s ih =>
      obtain ⟨⟨lead, runs, hblank, hapart⟩, rfl⟩ := ih
      cases hc : isBlank c with
      | true =>
          refine ⟨⟨c :: lead, runs, fun d hd => ?_, hapart⟩, rfl⟩
          rcases List.mem_cons.mp hd with rfl | hd
          · exact hc
          · exact hblank d hd
      | false =>
          have hsingle : ∀ d ∈ [c], isBlank d = false := fun d hd => List.mem_singleton.mp hd ▸ hc
          have hnone : ∀ d ∈ ([] : Text), isBlank d = true := fun _ hd => absurd hd List.not_mem_nil
          cases runs with
          | nil =>
              exact ⟨⟨[], [⟨[c], lead, List.cons_ne_nil c [], hsingle, hblank⟩], hnone,
                List.isChain_singleton _⟩, by simp [text, Run.text]⟩
          | cons r rs =>
              by_cases hlead : lead = []
              · -- the character stands directly in front of the first field
                subst hlead
                have hsolid : ∀ d ∈ c :: r.field, isBlank d = false := by
                  intro d hd
                  rcases List.mem_cons.mp hd with rfl | hd
                  · exact hc
                  · exact r.solid d hd
                let r' : Run := ⟨c :: r.field, r.gap, List.cons_ne_nil c _, hsolid, r.blank⟩
                refine ⟨⟨[], r' :: rs, hnone, ?_⟩, rfl⟩
                cases rs with
                | nil => exact List.isChain_singleton _
                | cons r'' rs => exact List.isChain_cons_cons.mpr (List.isChain_cons_cons.mp hapart)
              · refine ⟨⟨[], ⟨[c], lead, List.cons_ne_nil c [], hsingle, hblank⟩ :: r :: rs, hnone,
                  List.isChain_cons_cons.mpr ⟨hlead, hapart⟩⟩, ?_⟩
                simp [text, Run.text]

end Layout

/-! ## Splitting -/

section Splitting

variable {limit : Option Nat} {r : Run} {rs : List Run}

theorem splitArguments_nil (limit : Option Nat) : splitArguments limit [] = [] := by
  rw [splitArguments.eq_def, dif_pos rfl]

theorem splitArguments_zero (body : Text) : splitArguments (some 0) body = [] := by
  rw [splitArguments.eq_def]
  split
  · rfl
  · rfl

theorem splitArguments_one {body : Text} (h : body ≠ []) :
    splitArguments (some 1) body = [body] := by
  rw [splitArguments.eq_def, dif_neg h]
  rfl

/-- A limit that allows more than one argument lets a field be cut off. -/
theorem splitArguments_cut (hzero : limit ≠ some 0) (hone : limit ≠ some 1) {body : Text}
    (h : body ≠ []) :
    splitArguments limit body =
      (Text.cutField body).1 :: splitArguments (limit.map (· - 1)) (Text.cutField body).2 := by
  rw [splitArguments.eq_def, dif_neg h]
  split
  · exact absurd rfl hzero
  · exact absurd rfl hone
  · rfl

/-- Cutting a field takes off one run and what leads to it. -/
theorem cutField_runs {lead : Text} (hlead : ∀ c ∈ lead, isBlank c = true)
    (h : Apart (r :: rs)) :
    Text.cutField (lead ++ (r :: rs).flatMap Run.text) = (r.field, rs.flatMap Run.text) := by
  have hskip : Text.cutField (lead ++ (r :: rs).flatMap Run.text) =
      Text.cutField ((r :: rs).flatMap Run.text) := by
    simp only [Text.cutField, Text.trimStart, List.dropWhile_append_of_pos hlead]
  have hgap : Text.trimStart (r.gap ++ rs.flatMap Run.text) = rs.flatMap Run.text := by
    rw [Text.trimStart, List.dropWhile_append_of_pos r.blank]
    exact Text.trimStart_eq_self (head?_runs rs)
  rw [hskip, List.flatMap_cons, Run.text, List.append_assoc,
    Text.cutField_append r.ne_nil r.solid (head?_gap h), hgap]

theorem runs_ne_nil (r : Run) (rs : List Run) (lead : Text) :
    lead ++ (r :: rs).flatMap Run.text ≠ [] := by
  intro h
  have htext := (List.append_eq_nil_iff.mp h).2
  rw [List.flatMap_cons, Run.text, List.append_assoc] at htext
  exact r.ne_nil (List.append_eq_nil_iff.mp htext).1

/-- Splitting takes off one run, if the limit allows more than one argument. -/
theorem splitArguments_run (hzero : limit ≠ some 0) (hone : limit ≠ some 1) {lead : Text}
    (hlead : ∀ c ∈ lead, isBlank c = true) (h : Apart (r :: rs)) :
    splitArguments limit (lead ++ (r :: rs).flatMap Run.text) =
      r.field :: splitArguments (limit.map (· - 1)) (rs.flatMap Run.text) := by
  rw [splitArguments_cut hzero hone (runs_ne_nil r rs lead), cutField_runs hlead h]

/-- Blanks at the start say nothing, if the limit allows more than one argument. -/
theorem splitArguments_lead (hzero : limit ≠ some 0) (hone : limit ≠ some 1) {lead : Text}
    (hlead : ∀ c ∈ lead, isBlank c = true) (h : Apart (r :: rs)) :
    splitArguments limit (lead ++ (r :: rs).flatMap Run.text) =
      splitArguments limit ((r :: rs).flatMap Run.text) := by
  have hnone : ∀ c ∈ ([] : Text), isBlank c = true := fun _ hc => absurd hc List.not_mem_nil
  rw [splitArguments_run hzero hone hlead h, ← splitArguments_run hzero hone hnone h,
    List.nil_append]

/-- A text of blanks only is one empty argument. -/
theorem splitArguments_blank (hzero : limit ≠ some 0) (hone : limit ≠ some 1) {body : Text}
    (hne : body ≠ []) (hblank : ∀ c ∈ body, isBlank c = true) :
    splitArguments limit body = [[]] := by
  have hstart : Text.trimStart body = [] := List.dropWhile_eq_nil_iff.mpr hblank
  have hcut : Text.cutField body = ([], []) := by
    simp only [Text.cutField, hstart]
    rfl
  rw [splitArguments_cut hzero hone hne, hcut, splitArguments_nil]

/-- Without a limit every run is an argument. -/
theorem splitArguments_runs_none (h : Apart rs) :
    splitArguments none (rs.flatMap Run.text) = rs.map Run.field := by
  induction rs with
  | nil => exact splitArguments_nil none
  | cons r rs ih =>
      have hrun := @splitArguments_run none r rs (by simp) (by simp) [] (by simp) h
      rw [List.nil_append] at hrun
      rw [hrun]
      exact congrArg (r.field :: ·) (ih h.tail)

/-- Under a limit the runs that it has no room for are one argument. -/
theorem splitArguments_runs (n : Nat) (h : Apart rs) :
    splitArguments (some (n + 1)) (rs.flatMap Run.text) =
      if rs.length < n + 1 then rs.map Run.field
      else (rs.take n).map Run.field ++ [(rs.drop n).flatMap Run.text] := by
  induction rs generalizing n with
  | nil => exact splitArguments_nil _
  | cons r rs ih =>
      cases n with
      | zero =>
          rw [if_neg (by simp)]
          exact splitArguments_one (runs_ne_nil r rs [])
      | succ n =>
          have hrun := @splitArguments_run (some (n + 2)) r rs (by simp) (by simp) [] (by simp) h
          rw [List.nil_append] at hrun
          rw [hrun]
          show r.field :: splitArguments (some (n + 1)) _ = _
          rw [ih n h.tail, List.length_cons]
          by_cases hroom : rs.length < n + 1
          · rw [if_pos hroom, if_pos (Nat.succ_lt_succ hroom)]
            rfl
          · rw [if_neg hroom, if_neg fun hlt => hroom (Nat.lt_of_succ_lt_succ hlt)]
            rfl

end Splitting

namespace Layout

variable (l : Layout)

/-- The fields that splitting a text into all its fields gives are those of its layout. -/
theorem fields_text : Text.fields l.text = l.fields := by
  have hruns : ∀ {rs : List Run}, Apart rs →
      Text.fields (rs.flatMap Run.text) = rs.map Run.field := by
    intro rs hrs
    induction rs with
    | nil => rfl
    | cons r rs ih =>
        have hgap : Text.trimStart (r.gap ++ rs.flatMap Run.text) =
            Text.trimStart (rs.flatMap Run.text) := List.dropWhile_append_of_pos r.blank
        rw [List.flatMap_cons, Run.text, List.append_assoc,
          Text.fields_append r.ne_nil r.solid (head?_gap hrs), ← Text.fields_trimStart, hgap,
          Text.fields_trimStart, ih hrs.tail]
        rfl
  have hlead : Text.trimStart l.text = Text.trimStart (l.runs.flatMap Run.text) :=
    List.dropWhile_append_of_pos l.blank
  rw [← Text.fields_trimStart, hlead, Text.fields_trimStart, hruns l.apart]
  rfl

/-- A text without fields is blank. -/
theorem isBlank_of_fields_eq_nil (h : l.fields = []) : ∀ c ∈ l.text, isBlank c = true := by
  intro c hc
  rw [text, List.map_eq_nil_iff.mp h, List.flatMap_nil, List.append_nil] at hc
  exact l.blank c hc

/-- The text from a field on ends the text. -/
theorem textFrom_isSuffix (i : Nat) : l.textFrom i <:+ l.text := by
  refine ⟨l.lead ++ (l.runs.take i).flatMap Run.text, ?_⟩
  rw [text, textFrom, List.append_assoc, ← List.flatMap_append, List.take_append_drop]

/-- The arguments of a text, if nothing limits them. -/
theorem splitArguments_text_none :
    splitArguments none l.text =
      if l.text = [] then [] else if l.fields = [] then [[]] else l.fields := by
  by_cases hempty : l.text = []
  · rw [if_pos hempty, hempty]
    exact splitArguments_nil none
  · rw [if_neg hempty]
    by_cases hfields : l.fields = []
    · rw [if_pos hfields]
      exact splitArguments_blank (by simp) (by simp) hempty (l.isBlank_of_fields_eq_nil hfields)
    · rw [if_neg hfields]
      obtain ⟨r, rs, hruns⟩ := List.exists_cons_of_ne_nil (mt List.map_eq_nil_iff.mpr hfields)
      have hapart := l.apart
      rw [text, fields, hruns]
      rw [hruns] at hapart
      rw [splitArguments_lead (by simp) (by simp) l.blank hapart, splitArguments_runs_none hapart]

/-- The arguments of a text with a field under a limit that allows more than one. -/
theorem splitArguments_text_some (n : Nat) (hfields : l.fields ≠ []) :
    splitArguments (some (n + 2)) l.text =
      if l.fields.length < n + 2 then l.fields
      else l.fields.take (n + 1) ++ [l.textFrom (n + 1)] := by
  obtain ⟨r, rs, hruns⟩ := List.exists_cons_of_ne_nil (mt List.map_eq_nil_iff.mpr hfields)
  have hapart := l.apart
  rw [hruns] at hapart
  rw [text, textFrom, fields, hruns, splitArguments_lead (by simp) (by simp) l.blank hapart,
    splitArguments_runs (n + 1) hapart, List.length_map, List.map_take]

/-- A text with a field has as many arguments as fields, up to the limit. -/
theorem length_splitArguments (hfields : l.fields ≠ []) (n : Nat) :
    (splitArguments (some n) l.text).length = min n l.fields.length := by
  have hpos : 0 < l.fields.length := List.length_pos_iff.mpr hfields
  rcases n with _ | _ | n
  · rw [splitArguments_zero, Nat.zero_min]
    rfl
  · have hne : l.text ≠ [] := by
      intro hempty
      rw [← l.fields_text, hempty] at hfields
      exact hfields rfl
    rw [splitArguments_one hne, Nat.min_eq_left hpos]
    rfl
  · rw [l.splitArguments_text_some n hfields]
    by_cases hroom : l.fields.length < n + 2
    · rw [if_pos hroom, Nat.min_eq_right (Nat.le_of_lt hroom)]
    · rw [if_neg hroom, List.length_append, List.length_take, List.length_singleton]
      omega

end Layout

/-- Arguments are fields, and the last one takes the rest. Every text `s` has exactly one layout,
    whose fields are the longest runs of characters in it that are no blanks. Without a limit the
    arguments are the fields, but for a text of blanks only, which has one empty argument, and the
    empty text, which has none. A limit of 0 gives none, and a limit of 1 gives the text as it is if
    there is any. A larger limit gives the fields if there are fewer of them; otherwise those before
    the last argument are fields, and the last one is the rest of the text from the next field on,
    with all blanks; where there is no field, it gives what no limit gives. So the number of
    arguments is that of the fields or the limit, whichever is less, if there is a field at all. -/
theorem splitArguments_eq_fields (s : Text) :
    ∃ l : Layout, l.text = s ∧ (∀ l' : Layout, l'.text = s → l' = l) ∧ l.fields = Text.fields s ∧
      (∀ i, l.textFrom i <:+ s) ∧
      (splitArguments none s =
        if s = [] then [] else if l.fields = [] then [[]] else l.fields) ∧
      splitArguments (some 0) s = [] ∧
      (splitArguments (some 1) s = if s = [] then [] else [s]) ∧
      (∀ n, 2 ≤ n → splitArguments (some n) s =
        if l.fields = [] then splitArguments none s
        else if l.fields.length < n then l.fields
        else l.fields.take (n - 1) ++ [l.textFrom (n - 1)]) ∧
      (l.fields ≠ [] → ∀ n, (splitArguments (some n) s).length = min n l.fields.length) := by
  obtain ⟨l, rfl⟩ := Layout.exists_text_eq s
  have hone : splitArguments (some 1) l.text = if l.text = [] then [] else [l.text] := by
    by_cases hempty : l.text = []
    · rw [if_pos hempty, hempty]
      exact splitArguments_nil _
    · rw [if_neg hempty]
      exact splitArguments_one hempty
  refine ⟨l, rfl, fun l' h => Layout.text_injective h, l.fields_text.symm, l.textFrom_isSuffix,
    l.splitArguments_text_none, splitArguments_zero _, hone, ?_,
    fun hfields n => l.length_splitArguments hfields n⟩
  intro n hn
  obtain ⟨n, rfl⟩ := Nat.exists_eq_add_of_le' hn
  by_cases hfields : l.fields = []
  · rw [if_pos hfields]
    by_cases hempty : l.text = []
    · rw [hempty, splitArguments_nil, splitArguments_nil]
    · have hblank := l.isBlank_of_fields_eq_nil hfields
      rw [splitArguments_blank (by simp) (by simp) hempty hblank,
        splitArguments_blank (by simp) (by simp) hempty hblank]
  · rw [if_neg hfields]
    exact l.splitArguments_text_some n hfields

end LineScript
