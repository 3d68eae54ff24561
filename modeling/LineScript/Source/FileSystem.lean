import LineScript.Source.Line

/-!
# File systems

A file system maps finitely many names to what opening them gives: a stream, or a failure. All
other names are missing.

* `mem_names_of_access` and `length_le_of_access`: whatever opens is listed, and no longer than
  `lineBound`. The expander's termination rests on both.
-/

namespace LineScript

/-- A finite set of files: what opening each name gives, where of two entries the first counts, and
    what opening any other name gives. -/
structure FileSystem where
  files : List (Text × Except AccessError Stream)
  missing : AccessError := .missing

namespace FileSystem

/-- The file system of a list in which a later entry replaces an earlier one. -/
def ofList (files : List (Text × Except AccessError Stream)) : FileSystem :=
  { files := files.reverse }

/-- The names that have an entry. -/
def names (fs : FileSystem) : List Text := fs.files.map (·.1)

/-- Whether a name has an entry. -/
def contains (fs : FileSystem) (name : Text) : Bool := fs.names.contains name

/-- Opens a file. -/
def access (fs : FileSystem) (name : Text) : Except AccessError Stream :=
  match fs.files.find? (·.1 = name) with
  | some (_, file) => file
  | none => .error fs.missing

/-- Reads a file to its end as text. -/
def readText (fs : FileSystem) (name : Text) : Except AccessError Text :=
  fs.access name >>= Stream.wholeText

/-- How many lines opening gives. -/
def lineCount : Except AccessError Stream → Nat
  | .ok s => s.length
  | .error _ => 0

/-- No file has more lines. -/
def lineBound (fs : FileSystem) : Nat := (fs.files.map (lineCount ·.2)).foldr max 0

/-- Only listed names open. -/
theorem mem_names_of_access {fs : FileSystem} {name : Text} {s : Stream}
    (h : fs.access name = .ok s) : name ∈ fs.names := by
  unfold access at h
  split at h
  · rename_i n file hfind
    have hname := List.find?_some hfind
    have hmem := List.mem_of_find?_eq_some hfind
    simp only [decide_eq_true_eq] at hname
    exact List.mem_map.mpr ⟨(n, file), hmem, hname⟩
  · simp at h

/-- A member is at most the maximum. -/
theorem le_foldr_max {n : Nat} {ns : List Nat} (h : n ∈ ns) : n ≤ ns.foldr max 0 := by
  induction ns with
  | nil => simp at h
  | cons m ms ih =>
      simp only [List.foldr_cons]
      rcases List.mem_cons.mp h with rfl | h
      · omega
      · have := ih h
        omega

/-- What opens has at most `lineBound` lines. -/
theorem length_le_of_access {fs : FileSystem} {name : Text} {s : Stream}
    (h : fs.access name = .ok s) : s.length ≤ fs.lineBound := by
  unfold access at h
  split at h
  · rename_i n file hfind
    have hmem := List.mem_of_find?_eq_some hfind
    refine le_foldr_max (List.mem_map.mpr ⟨(n, file), hmem, ?_⟩)
    simp [h, lineCount]
  · simp at h

end FileSystem

end LineScript
