import LineScript.Text.Blank

/-!
# Blanks at the ends

Trimming gives the part of a text between its first and its last character that is no blank, and
this part is found again whatever blanks are put around it.

* `head?_trim`, `getLast?_trim`: a trimmed text has no blank at either end.
* `trim_append`: trimming takes off exactly the blanks at the ends.
* `trim_eq_nil_iff`: nothing is left of a blank text only.
* `trim_layout`, `cutField_layout`: where the trimmed text and the first field stand.
-/

namespace LineScript

namespace Text

/-- A text whose first character is no blank has no blanks at the start. -/
theorem trimStart_eq_self {t : Text} (h : ∀ c ∈ t.head?, isBlank c = false) : trimStart t = t := by
  cases t with
  | nil => rfl
  | cons c t =>
      have hc : ¬isBlank c = true := by rw [h c rfl]; exact Bool.false_ne_true
      exact List.dropWhile_cons_of_neg hc

/-- What starts behind the blanks starts with no blank. -/
theorem head?_trimStart (t : Text) : ∀ c ∈ (trimStart t).head?, isBlank c = false := by
  intro c hc
  have hhead := List.head?_dropWhile_not isBlank t
  rw [show (t.dropWhile isBlank).head? = some c from hc] at hhead
  simpa using hhead

/-- A text of which trimming leaves nothing is blank. -/
theorem isBlank_of_trimStart_eq_nil {t : Text} (h : trimStart t = []) :
    ∀ c ∈ t, isBlank c = true := by
  have happend := List.takeWhile_append_dropWhile (p := isBlank) (l := t)
  rw [show t.dropWhile isBlank = [] from h, List.append_nil] at happend
  rw [← happend]
  exact List.all_eq_true.mp List.all_takeWhile

/-- Trimming is the same from behind. -/
theorem reverse_trimEnd (t : Text) : (trimEnd t).reverse = trimStart t.reverse := by
  rw [trimEnd, List.reverse_reverse]
  rfl

/-- Blanks at the end go. -/
theorem trimEnd_append {t blanks : Text} (hlast : ∀ c ∈ t.getLast?, isBlank c = false)
    (hblanks : ∀ c ∈ blanks, isBlank c = true) : trimEnd (t ++ blanks) = t := by
  have hrev : ∀ c ∈ blanks.reverse, isBlank c = true :=
    fun c hc => hblanks c (List.mem_reverse.mp hc)
  have hstart : trimStart t.reverse = t.reverse :=
    trimStart_eq_self (by rw [List.head?_reverse]; exact hlast)
  rw [trimEnd, List.reverse_append, List.dropWhile_append_of_pos hrev]
  rw [show t.reverse.dropWhile isBlank = t.reverse from hstart, List.reverse_reverse]

/-- Trimming takes off exactly the blanks at the ends. -/
theorem trim_append {before t behind : Text} (hbefore : ∀ c ∈ before, isBlank c = true)
    (hhead : ∀ c ∈ t.head?, isBlank c = false) (hlast : ∀ c ∈ t.getLast?, isBlank c = false)
    (hne : t ≠ []) (hbehind : ∀ c ∈ behind, isBlank c = true) :
    trim (before ++ (t ++ behind)) = t := by
  have hstart : trimStart (before ++ (t ++ behind)) = t ++ behind := by
    rw [trimStart, List.dropWhile_append_of_pos hbefore]
    refine trimStart_eq_self ?_
    obtain ⟨c, rest, rfl⟩ := List.exists_cons_of_ne_nil hne
    exact hhead
  rw [trim, hstart, trimEnd_append hlast hbehind]

/-- A text without blanks at its ends is trimmed. -/
theorem trim_eq_self {t : Text} (hhead : ∀ c ∈ t.head?, isBlank c = false)
    (hlast : ∀ c ∈ t.getLast?, isBlank c = false) : trim t = t := by
  rw [trim, trimStart_eq_self hhead]
  have hend := trimEnd_append hlast (show ∀ c ∈ ([] : Text), isBlank c = true from nofun)
  rw [List.append_nil] at hend
  exact hend

/-- What is left of a text at its end is its start. -/
theorem trimEnd_isPrefix (t : Text) : trimEnd t <+: t := by
  rw [← List.reverse_suffix, reverse_trimEnd]
  exact List.dropWhile_suffix isBlank

/-- A trimmed text has only characters of the text. -/
theorem mem_of_mem_trim {t : Text} {c : Char} (h : c ∈ trim t) : c ∈ t :=
  (List.dropWhile_suffix isBlank).subset ((trimEnd_isPrefix (trimStart t)).subset h)

/-- A trimmed text does not end with a blank. -/
theorem getLast?_trim (t : Text) : ∀ c ∈ (trim t).getLast?, isBlank c = false := by
  intro c hc
  rw [trim, ← List.head?_reverse, reverse_trimEnd] at hc
  exact head?_trimStart _ c hc

/-- A trimmed text does not start with a blank. -/
theorem head?_trim (t : Text) : ∀ c ∈ (trim t).head?, isBlank c = false := by
  intro c hc
  obtain ⟨rest, hrest⟩ := trimEnd_isPrefix (trimStart t)
  refine head?_trimStart t c ?_
  rw [← hrest, List.head?_append, show (trimEnd (trimStart t)).head? = some c from hc]
  rfl

/-- Trimming leaves nothing of a blank text, and of no other. -/
theorem trim_eq_nil_iff {t : Text} : trim t = [] ↔ ∀ c ∈ t, isBlank c = true := by
  constructor
  · intro h
    have hstart : ∀ c ∈ trimStart t, isBlank c = true := fun c hc => by
      have hreverse := reverse_trimEnd (trimStart t)
      rw [show trimEnd (trimStart t) = [] from h] at hreverse
      exact isBlank_of_trimStart_eq_nil hreverse.symm c (List.mem_reverse.mpr hc)
    refine isBlank_of_trimStart_eq_nil ?_
    -- what starts behind the blanks starts with no blank, so there is nothing
    cases hrest : trimStart t with
    | nil => rfl
    | cons c rest =>
        have hsolid := head?_trimStart t c (by rw [hrest]; rfl)
        rw [hstart c (by rw [hrest]; exact List.mem_cons_self)] at hsolid
        cases hsolid
  · intro h
    cases hlast : (trim t).getLast? with
    | none => exact List.getLast?_eq_none_iff.mp hlast
    | some c =>
        have hsolid := getLast?_trim t c hlast
        rw [h c (mem_of_mem_trim (List.mem_of_getLast? hlast))] at hsolid
        cases hsolid

/-- What trimming leaves stands between blanks. -/
theorem trim_layout (t : Text) :
    ∃ before behind, t = before ++ (trim t ++ behind) ∧ (∀ c ∈ before, isBlank c = true) ∧
      ∀ c ∈ behind, isBlank c = true := by
  refine ⟨t.takeWhile isBlank, ((trimStart t).reverse.takeWhile isBlank).reverse, ?_, ?_, ?_⟩
  · have hrest : trim t ++ ((trimStart t).reverse.takeWhile isBlank).reverse = trimStart t := by
      rw [trim, trimEnd, ← List.reverse_append, List.takeWhile_append_dropWhile,
        List.reverse_reverse]
    rw [hrest, trimStart, List.takeWhile_append_dropWhile]
  · exact List.all_eq_true.mp List.all_takeWhile
  · intro c hc
    exact List.all_eq_true.mp List.all_takeWhile c (List.mem_reverse.mp hc)

/-- A field has no blanks. -/
theorem isBlank_of_mem_cutField {t : Text} {c : Char} (h : c ∈ (cutField t).1) :
    isBlank c = false := by
  have hall := List.all_eq_true.mp List.all_takeWhile c h
  simpa using hall

/-- The first field stands behind blanks, and what is left starts behind the blanks that follow. -/
theorem cutField_layout (t : Text) :
    ∃ before behind, t = before ++ ((cutField t).1 ++ behind) ∧
      (∀ c ∈ before, isBlank c = true) ∧ (cutField t).2 = trimStart behind := by
  refine ⟨t.takeWhile isBlank, (trimStart t).dropWhile (!isBlank ·), ?_, ?_, rfl⟩
  · rw [cutField, List.takeWhile_append_dropWhile, trimStart, List.takeWhile_append_dropWhile]
  · exact List.all_eq_true.mp List.all_takeWhile

end Text

end LineScript
