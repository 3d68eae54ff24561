import LineScript.Text.Basic

/-!
# Blanks

A blank is a character of the Unicode property `White_Space`. A field is a maximal run of
characters that are no blanks. `cutField` takes the first field off a text, `fields` gives all.
-/

namespace LineScript

/-- The Unicode property `White_Space`. -/
def isBlank (c : Char) : Bool :=
  let n := c.toNat
  (9 ≤ n && n ≤ 13) || n == 0x20 || n == 0x85 || n == 0xA0 || n == 0x1680 ||
    (0x2000 ≤ n && n ≤ 0x200A) || n == 0x2028 || n == 0x2029 || n == 0x202F ||
    n == 0x205F || n == 0x3000

/-- The Unicode category `Cc`: the control characters of ASCII and Latin-1. -/
def isControl (c : Char) : Bool :=
  let n := c.toNat
  n ≤ 0x1F || (0x7F ≤ n && n ≤ 0x9F)

namespace Text

/-- Removes the blanks at the start. -/
def trimStart (t : Text) : Text := t.dropWhile isBlank

/-- Removes the blanks at the end. -/
def trimEnd (t : Text) : Text := (t.reverse.dropWhile isBlank).reverse

/-- Removes the blanks at both ends. -/
def trim (t : Text) : Text := trimEnd (trimStart t)

/-- The first field, and the text that starts at the second. -/
def cutField (t : Text) : Text × Text :=
  let t := trimStart t
  (t.takeWhile (!isBlank ·), trimStart (t.dropWhile (!isBlank ·)))

/-- All fields, in order. -/
def fields : Text → List Text
  | [] => []
  | c :: cs =>
      if isBlank c then fields cs
      else match cs with
        | [] => [[c]]
        | d :: ds =>
            if isBlank d then [c] :: fields (d :: ds)
            else match fields (d :: ds) with
              | [] => [[c]]
              | f :: fs => (c :: f) :: fs

/-- Trimming does not lengthen. -/
theorem length_trimStart_le (t : Text) : (trimStart t).length ≤ t.length :=
  (List.dropWhile_suffix isBlank).length_le

/-- What follows the first field is shorter than a text that has anything in it. -/
theorem length_cutField_lt {t : Text} (h : t ≠ []) : (cutField t).2.length < t.length := by
  have hpos : 0 < t.length := List.length_pos_iff.mpr h
  have hlen := length_trimStart_le t
  simp only [cutField]
  cases hs : trimStart t with
  | nil => simpa [trimStart] using hpos
  | cons c cs =>
      have hc : isBlank c = false := by
        have hhead := List.head?_dropWhile_not isBlank t
        rw [show t.dropWhile isBlank = c :: cs from hs] at hhead
        simpa using hhead
      have hcs := (List.dropWhile_suffix (l := cs) (!isBlank ·)).length_le
      have hrest := length_trimStart_le (cs.dropWhile (!isBlank ·))
      simp only [hs, List.length_cons] at hlen
      simp only [List.dropWhile_cons, hc, Bool.not_false, if_true]
      omega

end Text

end LineScript
