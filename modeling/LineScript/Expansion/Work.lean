import LineScript.Script.Reader
import LineScript.Source.FileSystem

/-!
# The work ahead of a run

An open file is not opened again, so a line of a file can only start the reading of files that
are not open yet. `filesWork` counts the lines ahead, each with all it could start. It gets
smaller with every line read, also when that line opens a file: `filesWork_read_lt` and
`filesWork_splice_lt`.
-/

namespace LineScript

/-- A file being read: the name it was opened by and what is still to be read. -/
structure FileFrame where
  name : Text
  reader : Reader
deriving DecidableEq, Repr, Inhabited

/-- How many listed names are not open. -/
def closedNames (fs : FileSystem) (opened : List Text) : Nat :=
  fs.names.countP (!opened.contains ·)

/-- All that one spliced file can start when `n` names are not open. -/
def spliceWork (bound : Nat) : Nat → Nat
  | 0 => 0
  | n + 1 => 1 + bound * (1 + spliceWork bound n)

/-- All that the open files can start, the innermost first; `opened` names the open files. -/
def filesWork (fs : FileSystem) : List FileFrame → List Text → Nat
  | [], _ => 0
  | frame :: outer, opened =>
      1 + frame.reader.ahead.length * (1 + spliceWork fs.lineBound (closedNames fs opened)) +
        filesWork fs outer opened.tail

/-- A name that is listed and new to `seen` leaves fewer names outside it. -/
theorem countP_not_contains_cons_lt {names seen : List Text} {name : Text}
    (hmem : name ∈ names) (hnew : seen.contains name = false) :
    names.countP (!(name :: seen).contains ·) < names.countP (!seen.contains ·) := by
  have himp : ∀ n, (!(name :: seen).contains n) = true → (!seen.contains n) = true := by
    intro n h
    simp only [List.contains_cons, Bool.not_or, Bool.and_eq_true] at h
    exact h.2
  induction names with
  | nil => simp at hmem
  | cons n ns ih =>
      rw [List.countP_cons, List.countP_cons]
      by_cases hn : n = name
      · subst hn
        have hle := List.countP_mono_left (l := ns) fun m _ => himp m
        rw [hnew]
        simp only [List.contains_cons, BEq.rfl, Bool.true_or] at hle ⊢
        simp only [Bool.not_true, Bool.false_eq_true, if_false, Bool.not_false, if_true]
        omega
      · have hlt := ih (by
          rcases List.mem_cons.mp hmem with rfl | h
          · exact absurd rfl hn
          · exact h)
        have hsame : (name :: seen).contains n = seen.contains n := by
          have hb : (n == name) = false := by simpa using hn
          rw [List.contains_cons, hb, Bool.false_or]
        rw [hsame]
        omega

/-- Opening a listed name that is closed leaves fewer closed names. -/
theorem closedNames_cons_lt {fs : FileSystem} {name : Text} {opened : List Text}
    (hmem : name ∈ fs.names) (hclosed : opened.contains name = false) :
    closedNames fs (name :: opened) < closedNames fs opened :=
  countP_not_contains_cons_lt hmem hclosed

/-- More closed names can start more. -/
theorem spliceWork_le (bound : Nat) {a b : Nat} (h : a ≤ b) :
    spliceWork bound a ≤ spliceWork bound b := by
  induction b generalizing a with
  | zero => simp [Nat.le_zero.mp h]
  | succ b ih =>
      cases a with
      | zero => simp [spliceWork]
      | succ a =>
          have := Nat.mul_le_mul_left bound (Nat.add_le_add_left (ih (Nat.le_of_succ_le_succ h)) 1)
          simp only [spliceWork]
          omega

/-- Reading lines of the innermost file makes the work smaller. -/
theorem filesWork_read_lt (fs : FileSystem) {frame : FileFrame} {reader : Reader}
    (outer : List FileFrame) (opened : List Text)
    (hlt : reader.ahead.length < frame.reader.ahead.length) :
    filesWork fs ({ frame with reader } :: outer) opened <
      filesWork fs (frame :: outer) opened := by
  have := Nat.mul_lt_mul_of_pos_right hlt
    (show 0 < 1 + spliceWork fs.lineBound (closedNames fs opened) by omega)
  simp only [filesWork]
  omega

/-- So does reading lines of the innermost file and opening one that is closed. -/
theorem filesWork_splice_lt {fs : FileSystem} {frame : FileFrame} {reader : Reader}
    (outer : List FileFrame) {opened : List Text} {name : Text} {stream : Stream}
    (hlt : reader.ahead.length < frame.reader.ahead.length)
    (haccess : fs.access name = .ok stream) (hclosed : opened.contains name = false) :
    filesWork fs (⟨name, .ofStream stream⟩ :: { frame with reader } :: outer) (name :: opened) <
      filesWork fs (frame :: outer) opened := by
  have hfewer := closedNames_cons_lt (FileSystem.mem_names_of_access haccess) hclosed
  obtain ⟨n, hn⟩ : ∃ n, closedNames fs opened = n + 1 := ⟨closedNames fs opened - 1, by omega⟩
  have hsub := spliceWork_le fs.lineBound
    (show closedNames fs (name :: opened) ≤ n by omega)
  have hnew : stream.length * (1 + spliceWork fs.lineBound (closedNames fs (name :: opened))) ≤
      fs.lineBound * (1 + spliceWork fs.lineBound n) :=
    Nat.mul_le_mul (FileSystem.length_le_of_access haccess) (by omega)
  have hline := Nat.mul_le_mul_right (1 + spliceWork fs.lineBound (n + 1)) (Nat.succ_le_of_lt hlt)
  rw [Nat.succ_mul] at hline
  simp only [filesWork, List.tail_cons, Reader.ofStream, hn]
  simp only [spliceWork] at hline ⊢
  omega

end LineScript
