import LineScript.Text.Basic

/-!
# Parameter references

A `$` in a template body starts a reference when a name follows it: everything between braces,
or one digit or one of `*#$@!?-`, or the longest run of ASCII letters, digits and underscores.
Any other `$` is text. Replacing references is one pass from left to right; what is put in is
never looked at again.
-/

namespace LineScript

/-- Characters of a name that is written without braces. -/
def isNameChar (c : Char) : Bool := c.isAlphanum || c == '_'

/-- Characters that are a name on their own. -/
def isSingleName (c : Char) : Bool :=
  c.isDigit || ['*', '#', '$', '@', '!', '?', '-'].contains c

/-- The name referred to by a text that follows a `$`, and what follows the reference. -/
def reference : Text → Option (Text × Text)
  | [] => none
  | c :: rest =>
      if c = '\x7b' then
        match rest.takeWhile (· ≠ '\x7d'), rest.dropWhile (· ≠ '\x7d') with
        | [], _ => none
        | _, [] => none
        | name, _ :: rest => some (name, rest)
      else if isSingleName c then some ([c], rest)
      else if isNameChar c then some (c :: rest.takeWhile isNameChar, rest.dropWhile isNameChar)
      else none

/-- A reference takes something off the text. -/
theorem length_reference_lt {t name rest : Text} (h : reference t = some (name, rest)) :
    rest.length < t.length := by
  cases t with
  | nil => cases h
  | cons c cs =>
      rw [reference] at h
      rw [List.length_cons]
      by_cases hbrace : c = '\x7b'
      · rw [if_pos hbrace] at h
        have hclose := (List.dropWhile_suffix (l := cs) (· ≠ '\x7d')).length_le
        split at h
        · cases h
        · cases h
        · rename_i brace after hdrop _
          obtain ⟨-, rfl⟩ := Prod.mk.inj (Option.some.inj h)
          rw [hdrop, List.length_cons] at hclose
          exact Nat.lt_succ_of_le (Nat.le_of_succ_le hclose)
      · rw [if_neg hbrace] at h
        by_cases hsingle : isSingleName c = true
        · rw [if_pos hsingle] at h
          obtain ⟨-, rfl⟩ := Prod.mk.inj (Option.some.inj h)
          exact Nat.lt_succ_self _
        · rw [if_neg hsingle] at h
          by_cases hname : isNameChar c = true
          · rw [if_pos hname] at h
            obtain ⟨-, rfl⟩ := Prod.mk.inj (Option.some.inj h)
            exact Nat.lt_succ_of_le (List.dropWhile_suffix isNameChar).length_le
          · rw [if_neg hname] at h
            cases h

/-- Replaces every reference by what `lookup` gives for its name, asking from left to right. -/
def substitute {m : Type → Type} [Monad m] (lookup : Text → m Text) (t : Text) : m Text :=
  match t with
  | [] => pure []
  | c :: rest =>
      if c = '$' then
        match _h : reference rest with
        | some (name, after) => do
            let value ← lookup name
            let more ← substitute lookup after
            pure (value ++ more)
        | none => do
            let more ← substitute lookup rest
            pure ('$' :: more)
      else do
        let more ← substitute lookup rest
        pure (c :: more)
termination_by t.length
decreasing_by
  · have := length_reference_lt _h
    simp only [List.length_cons]
    omega
  · simp
  · simp

end LineScript
