import LineScript.Source.Line

/-!
# Text and its physical lines

What cutting a text into lines gives, for texts that are put together from lines. A line here is
written without its line feed, so `closed` puts it back.

* `pieces_closed`: cutting closed lines apart undoes joining them.
* `closed_splitOn`: a text with a final line feed is its parts, each closed.
* `indented_eq_closed`: moving a text to the right puts a tab in front of all parts but the first.
-/

namespace LineScript

namespace Text

/-! ## Cutting behind a separator -/

section Pieces

variable {α : Type} [DecidableEq α] {sep : α}

/-- The first piece ends at the first separator. -/
theorem pieces_append_sep {as : List α} (h : sep ∉ as) (rest : List α) :
    pieces sep (as ++ sep :: rest) = (as ++ [sep]) :: pieces sep rest := by
  induction as with
  | nil => rw [List.nil_append, pieces, if_pos rfl]; rfl
  | cons a as ih =>
      have ha : a ≠ sep := fun heq => h (by simp [heq])
      have has : sep ∉ as := fun hmem => h (by simp [hmem])
      rw [List.cons_append, pieces, if_neg ha, ih has]
      rfl

/-- What has no separator belongs to the first piece behind it. -/
theorem pieces_append {as : List α} (hne : as ≠ []) (h : sep ∉ as) (rest : List α) :
    pieces sep (as ++ rest) =
      match pieces sep rest with
      | [] => [as]
      | p :: ps => (as ++ p) :: ps := by
  induction as with
  | nil => exact absurd rfl hne
  | cons a as ih =>
      have ha : a ≠ sep := fun heq => h (by simp [heq])
      have has : sep ∉ as := fun hmem => h (List.mem_cons_of_mem a hmem)
      rw [List.cons_append, pieces, if_neg ha]
      by_cases hempty : as = []
      · subst hempty
        cases hrest : pieces sep rest with
        | nil => rw [List.nil_append, hrest]
        | cons p ps => rw [List.nil_append, hrest]; rfl
      · rw [ih hempty has]
        cases pieces sep rest with
        | nil => rfl
        | cons p ps => rfl

/-- The first piece starts with the first element. -/
theorem pieces_cons (sep a : α) (as : List α) :
    ∃ p ps, pieces sep (a :: as) = (a :: p) :: ps := by
  rw [pieces]
  by_cases ha : a = sep
  · rw [if_pos ha]
    exact ⟨[], pieces sep as, rfl⟩
  · rw [if_neg ha]
    cases pieces sep as with
    | nil => exact ⟨[], [], rfl⟩
    | cons p ps => exact ⟨p, ps, rfl⟩

/-- No piece is empty, and one that starts with a separator is that separator. -/
theorem piece_eq_cons {as p : List α} (h : p ∈ pieces sep as) :
    ∃ a rest, p = a :: rest ∧ (a = sep → rest = []) := by
  induction as generalizing p with
  | nil => cases h
  | cons a as ih =>
      rw [pieces] at h
      by_cases ha : a = sep
      · rw [if_pos ha] at h
        rcases List.mem_cons.mp h with rfl | h
        · exact ⟨a, [], rfl, fun _ => rfl⟩
        · exact ih h
      · rw [if_neg ha] at h
        cases hpieces : pieces sep as with
        | nil =>
            rw [hpieces] at h
            exact ⟨a, [], List.mem_singleton.mp h, fun _ => rfl⟩
        | cons q qs =>
            rw [hpieces] at h
            rcases List.mem_cons.mp h with rfl | h
            · exact ⟨a, q, rfl, fun heq => absurd heq ha⟩
            · exact ih (by rw [hpieces]; exact List.mem_cons_of_mem q h)

end Pieces

/-! ## Lines that are put together -/

/-- Lines with their line feeds. -/
def closed (ls : List Text) : List Text := ls.map (· ++ ['\n'])

/-- Cutting closed lines apart undoes joining them. -/
theorem pieces_closed {ls : List Text} (h : ∀ l ∈ ls, '\n' ∉ l) (rest : Text) :
    pieces '\n' ((closed ls).flatten ++ rest) = closed ls ++ pieces '\n' rest := by
  induction ls with
  | nil => rfl
  | cons l ls ih =>
      have hl : '\n' ∉ l := h l (by simp)
      have hls : ∀ l ∈ ls, '\n' ∉ l := fun l hl => h l (by simp [hl])
      show pieces '\n' (((l ++ ['\n']) ++ (closed ls).flatten) ++ rest) = _
      rw [List.append_assoc, List.append_assoc, List.singleton_append, pieces_append_sep hl, ih hls]
      rfl

/-! ## The parts of a text -/

/-- One more character belongs to the first part, unless it is a line feed. -/
theorem splitOn_cons_of_ne {c : Char} (hc : c ≠ '\n') {t l : Text} {ls : List Text}
    (h : t.splitOn '\n' = l :: ls) : (c :: t).splitOn '\n' = (c :: l) :: ls := by
  rw [List.splitOn_cons_eq_if_modifyHead, if_neg (by simpa using hc), h]
  rfl

/-- One more line feed is an empty part. -/
theorem splitOn_newline (t : Text) : ('\n' :: t).splitOn '\n' = [] :: t.splitOn '\n' := by
  rw [List.splitOn_cons_eq_if_modifyHead, if_pos (by simp)]

/-- No part has a line feed. -/
theorem not_mem_of_mem_splitOn (t : Text) : ∀ l ∈ t.splitOn '\n', '\n' ∉ l := by
  induction t with
  | nil =>
      intro l hl
      rw [List.mem_singleton.mp hl]
      exact List.not_mem_nil
  | cons c t ih =>
      by_cases hc : c = '\n'
      · subst hc
        rw [splitOn_newline]
        intro l hl
        rcases List.mem_cons.mp hl with rfl | hl
        · exact List.not_mem_nil
        · exact ih l hl
      · obtain ⟨l, ls, hsplit⟩ := List.exists_cons_of_ne_nil (List.splitOn_ne_nil '\n' t)
        rw [splitOn_cons_of_ne hc hsplit]
        rw [hsplit] at ih
        intro l' hl'
        rcases List.mem_cons.mp hl' with rfl | hl'
        · intro hmem
          rcases List.mem_cons.mp hmem with heq | hmem
          · exact hc heq.symm
          · exact ih l (by simp) hmem
        · exact ih l' (by simp [hl'])

/-- A text with a final line feed is its parts, each closed. -/
theorem closed_splitOn (t : Text) : (closed (t.splitOn '\n')).flatten = t ++ ['\n'] := by
  induction t with
  | nil => rfl
  | cons c t ih =>
      by_cases hc : c = '\n'
      · subst hc
        rw [splitOn_newline]
        show '\n' :: (closed (t.splitOn '\n')).flatten = _
        rw [ih]
        rfl
      · obtain ⟨l, ls, hsplit⟩ := List.exists_cons_of_ne_nil (List.splitOn_ne_nil '\n' t)
        rw [splitOn_cons_of_ne hc hsplit]
        rw [hsplit] at ih
        show c :: (closed (l :: ls)).flatten = _
        rw [ih]
        rfl

/-- Every line feed starts one more part. -/
theorem length_splitOn (t : Text) : (t.splitOn '\n').length = t.count '\n' + 1 := by
  induction t with
  | nil => rfl
  | cons c t ih =>
      by_cases hc : c = '\n'
      · subst hc
        rw [splitOn_newline, List.length_cons, ih, List.count_cons_self]
      · obtain ⟨l, ls, hsplit⟩ := List.exists_cons_of_ne_nil (List.splitOn_ne_nil '\n' t)
        rw [splitOn_cons_of_ne hc hsplit, List.count_cons_of_ne hc, ← ih, hsplit]
        rfl

/-- Moving a text to the right puts a tab in front of all parts but the first. -/
theorem indented_eq_closed {t l : Text} {ls : List Text} (h : t.splitOn '\n' = l :: ls) :
    indented t ++ ['\n'] = (closed (l :: ls.map ('\t' :: ·))).flatten := by
  induction t generalizing l ls with
  | nil =>
      obtain ⟨rfl, rfl⟩ := List.cons.inj (show [[]] = l :: ls from h)
      rfl
  | cons c t ih =>
      obtain ⟨l', ls', hsplit⟩ := List.exists_cons_of_ne_nil (List.splitOn_ne_nil '\n' t)
      have hrest := ih hsplit
      by_cases hc : c = '\n'
      · subst hc
        rw [splitOn_newline, hsplit] at h
        obtain ⟨rfl, rfl⟩ := List.cons.inj h
        show '\n' :: '\t' :: (indented t ++ ['\n']) = _
        rw [hrest]
        rfl
      · rw [splitOn_cons_of_ne hc hsplit] at h
        obtain ⟨rfl, rfl⟩ := List.cons.inj h
        have hhead : indented (c :: t) = c :: indented t := by
          show (if c = '\n' then ['\n', '\t'] else [c]) ++ indented t = _
          rw [if_neg hc]
          rfl
        rw [hhead, List.cons_append, hrest]
        rfl

/-- Moving lines to the right changes nothing up to the first line feed. -/
theorem indented_append {name : Text} (h : '\n' ∉ name) (t : Text) :
    indented (name ++ t) = name ++ indented t := by
  induction name with
  | nil => rfl
  | cons c name ih =>
      have hc : c ≠ '\n' := fun heq => h (by simp [heq])
      show (if c = '\n' then ['\n', '\t'] else [c]) ++ indented (name ++ t) = _
      rw [if_neg hc, ih (fun hmem => h (List.mem_cons_of_mem c hmem))]
      rfl

/-- Moving lines to the right leaves the first character where it is. -/
theorem head?_indented (t : Text) : (indented t).head? = t.head? := by
  cases t with
  | nil => rfl
  | cons c t =>
      show ((if c = '\n' then ['\n', '\t'] else [c]) ++ indented t).head? = some c
      by_cases hc : c = '\n'
      · rw [if_pos hc, hc]; rfl
      · rw [if_neg hc]; rfl

/-- Moving lines to the right leaves their number. -/
theorem count_indented (t : Text) : (indented t).count '\n' = t.count '\n' := by
  induction t with
  | nil => rfl
  | cons c t ih =>
      show ((if c = '\n' then ['\n', '\t'] else [c]) ++ indented t).count '\n' = _
      rw [List.count_append, ih]
      by_cases hc : c = '\n'
      · subst hc
        rw [if_pos rfl, List.count_cons_self (l := t), Nat.add_comm]
        rfl
      · rw [if_neg hc, List.count_cons_of_ne hc, List.count_cons_of_ne hc]
        exact Nat.zero_add _

/-- Removing the final line feed of a text that was given one. -/
theorem stripNewline_append (t : Text) : stripNewline (t ++ ['\n']) = t := by
  rw [stripNewline, if_pos (by rw [List.getLast?_concat]), List.dropLast_concat]

theorem stripNewline_of_not_mem {t : Text} (h : '\n' ∉ t) : stripNewline t = t :=
  if_neg fun hlast => h (List.mem_of_getLast? hlast)

theorem stripNewline_append_of_ne_nil (as : Text) {bs : Text} (h : bs ≠ []) :
    stripNewline (as ++ bs) = as ++ stripNewline bs := by
  have hlast : (as ++ bs).getLast? = bs.getLast? := by
    rw [List.getLast?_append, List.getLast?_eq_some_getLast h, Option.some_or]
  rw [stripNewline, stripNewline, hlast]
  split
  · exact List.dropLast_append_of_ne_nil h
  · rfl

end Text

end LineScript
