import LineScript.Expansion.Call
import LineScript.Expansion.Work

/-!
# How deep calls nest

A call enters its template among the active ones and leaves it again, so between two lines of a
template's text the active calls are always the same. While a template is active it is not
entered, so every call inside a call finds fewer templates that are idle.

Both facts together make the room of `expandCall` a mere bound: with as much room as there are
idle templates, more room changes nothing.

* `expandCall_calls`: a call leaves the active calls as it found them, whatever its outcome.
* `expandCall_room`: the outcome of a call does not depend on the room.
* `expandCall_unfold`: the calls of a run obey the recursion that knows no room.
-/

namespace LineScript

/-! ## Templates that are registered -/

/-- What is called is registered under the name of the call, and has text. -/
theorem Registry.callee?_eq_some {reg : Registry} {name : Text} {t : Template}
    (h : reg.callee? name = some t) : t ∈ reg.templates ∧ t.name = name ∧ t.body ≠ [] := by
  rw [Registry.callee?] at h
  obtain ⟨hget, hbody⟩ := Option.filter_eq_some_iff.mp h
  have hname := List.find?_some hget
  have hmem := List.mem_of_find?_eq_some hget
  exact ⟨hmem, by simpa using hname, by simpa using hbody⟩

/-- How many registered templates are not among the active ones. -/
def idleTemplates (reg : Registry) (active : List Text) : Nat :=
  (reg.templates.map (·.name)).countP (!active.contains ·)

/-- No more templates are idle than there are. -/
theorem idleTemplates_le_size (reg : Registry) (active : List Text) :
    idleTemplates reg active ≤ reg.size := by
  have hle := List.countP_le_length (p := (!active.contains ·)) (l := reg.templates.map (·.name))
  rw [List.length_map] at hle
  exact hle

/-- Entering an idle template leaves fewer of them. -/
theorem idleTemplates_cons_lt {reg : Registry} {name : Text} {t : Template} {active : List Text}
    (hcallee : reg.callee? name = some t) (hidle : active.contains name = false) :
    idleTemplates reg (name :: active) < idleTemplates reg active := by
  obtain ⟨hmem, hname, -⟩ := Registry.callee?_eq_some hcallee
  have hlisted : name ∈ reg.templates.map (·.name) := List.mem_map.mpr ⟨t, hmem, hname⟩
  exact countP_not_contains_cons_lt hlisted hidle

/-! ## Entering and leaving calls -/

namespace CallStack

/-- A call is refused exactly if its template is active. -/
theorem push?_eq_none {calls : CallStack} {frame : Expanded} :
    calls.push? frame = none ↔ calls.active.contains frame.name = true := by
  rw [push?, isActive]
  by_cases h : calls.active.contains frame.name = true
  · rw [if_pos h]; exact ⟨fun _ => h, fun _ => rfl⟩
  · rw [if_neg h]; exact ⟨nofun, fun hc => absurd hc h⟩

/-- A call that is entered becomes the innermost one. -/
theorem push?_eq_some {calls inner : CallStack} {frame : Expanded}
    (h : calls.push? frame = some inner) :
    calls.active.contains frame.name = false ∧
      inner = ⟨calls.frames ++ [frame], frame.name :: calls.active⟩ := by
  rw [push?, isActive] at h
  by_cases hactive : calls.active.contains frame.name = true
  · rw [if_pos hactive] at h; cases h
  · rw [if_neg hactive] at h
    exact ⟨by simpa using hactive, (Option.some.inj h).symm⟩

/-- Leaving undoes entering. -/
theorem pop_of_push? {calls inner : CallStack} {frame : Expanded}
    (h : calls.push? frame = some inner) : inner.pop = calls := by
  obtain ⟨-, rfl⟩ := push?_eq_some h
  simp [pop]

end CallStack

/-! ## The active calls are restored -/

section Restoring

variable (reg : Registry) {call : Template → Expanded → Calling (List Expanded)}

/-- A step that leaves the active calls as it found them. -/
def Restoring (call : Template → Expanded → Calling (List Expanded)) : Prop :=
  ∀ t site calls, (call t site calls).2 = calls

theorem expandCommand_calls (hcall : Restoring call) (e : Expanded) (calls : CallStack) :
    (expandCommand reg call e calls).2 = calls := by
  rw [expandCommand]
  split
  · rfl
  · split
    · exact hcall _ _ _
    · rfl

theorem expandLines_calls (hcall : Restoring call) (t : Template) (args : Arguments)
    (site : Expanded) (lines : List Expression) (calls : CallStack) :
    (expandLines reg call t args site lines calls).2 = calls := by
  induction lines with
  | nil => rfl
  | cons line lines ih =>
      rw [expandLines]
      split
      · rfl
      · rename_i e _
        have hcommand := expandCommand_calls reg hcall e calls
        split
        · rename_i hfail
          rw [hfail] at hcommand
          exact hcommand
        · rename_i hok
          rw [hok] at hcommand
          obtain rfl : _ = calls := hcommand
          split
          · rename_i hmore
            rw [hmore] at ih
            exact ih
          · rename_i hmore
            rw [hmore] at ih
            exact ih

theorem expandBody_calls (hcall : Restoring call) (t : Template) (site : Expanded)
    (calls : CallStack) : (expandBody reg call t site calls).2 = calls := by
  rw [expandBody]
  split
  · rfl
  · rename_i args _
    have hlines := expandLines_calls reg hcall t args site
      (readAll (Stream.ofText t.body)).1 calls
    simp only
    split
    · rename_i hfail
      rw [hfail] at hlines
      exact hlines
    · rename_i hok
      rw [hok] at hlines
      split <;> exact hlines

end Restoring

/-- A call leaves the active calls as it found them, whatever its outcome. -/
theorem expandCall_calls (reg : Registry) (room : Nat) : Restoring (expandCall reg room) := by
  induction room with
  | zero => intro t site calls; rfl
  | succ room ih =>
      intro t site calls
      rw [expandCall]
      simp only
      split
      · rfl
      · rename_i inner hpush
        have hbody := expandBody_calls reg ih t { site with stack := calls.frames } inner
        simp only [hbody]
        exact CallStack.pop_of_push? hpush

/-! ## The room of a call -/

section Agreeing

variable {reg : Registry} {call call' : Template → Expanded → Calling (List Expanded)}

/-- Two ways to call that agree on every call a run can make inside the calls `calls`. -/
def AgreeWithin (reg : Registry) (call call' : Template → Expanded → Calling (List Expanded))
    (calls : CallStack) : Prop :=
  ∀ t site, reg.callee? site.name = some t → call t site calls = call' t site calls

theorem expandCommand_congr {calls : CallStack} (h : AgreeWithin reg call call' calls)
    (e : Expanded) : expandCommand reg call e calls = expandCommand reg call' e calls := by
  rw [expandCommand, expandCommand]
  split
  · rfl
  · split
    · rename_i t hcallee
      exact h t e hcallee
    · rfl

theorem expandLines_congr {calls : CallStack} (hcall : Restoring call)
    (h : AgreeWithin reg call call' calls) (t : Template) (args : Arguments) (site : Expanded)
    (lines : List Expression) :
    expandLines reg call t args site lines calls =
      expandLines reg call' t args site lines calls := by
  induction lines with
  | nil => rfl
  | cons line lines ih =>
      rw [expandLines, expandLines]
      split
      · rfl
      · rename_i e _
        rw [← expandCommand_congr h e]
        -- the calls after the line are those before it, so the rest agrees by induction
        have hcommand := expandCommand_calls reg hcall e calls
        split
        · rfl
        · rename_i hok
          rw [hok] at hcommand
          obtain rfl : _ = calls := hcommand
          rw [ih]

theorem expandBody_congr {calls : CallStack} (hcall : Restoring call)
    (h : AgreeWithin reg call call' calls) (t : Template) (site : Expanded) :
    expandBody reg call t site calls = expandBody reg call' t site calls := by
  rw [expandBody, expandBody]
  split
  · rfl
  · simp only [expandLines_congr hcall h]

end Agreeing

/-- With no idle template left, every call is refused. -/
theorem push?_eq_none_of_idle {reg : Registry} {t : Template} {frame : Expanded}
    {calls : CallStack} (hcallee : reg.callee? frame.name = some t)
    (hidle : idleTemplates reg calls.active = 0) : calls.push? frame = none := by
  rw [CallStack.push?_eq_none]
  cases hactive : calls.active.contains frame.name with
  | true => rfl
  | false =>
      have hlt := idleTemplates_cons_lt hcallee hactive
      omega

/-- A call that is entered leaves fewer idle templates. -/
theorem idleTemplates_push_lt {reg : Registry} {t : Template} {frame : Expanded}
    {calls inner : CallStack} (hcallee : reg.callee? frame.name = some t)
    (hpush : calls.push? frame = some inner) :
    idleTemplates reg inner.active < idleTemplates reg calls.active := by
  obtain ⟨hidle, rfl⟩ := CallStack.push?_eq_some hpush
  exact idleTemplates_cons_lt hcallee hidle

/-- With no idle template left, a call needs no room: it is refused. -/
theorem expandCall_zero_room {reg : Registry} {t : Template} {site : Expanded} {calls : CallStack}
    (hcallee : reg.callee? site.name = some t) (hidle : idleTemplates reg calls.active = 0)
    (room : Nat) : expandCall reg 0 t site calls = expandCall reg room t site calls := by
  cases room with
  | zero => rfl
  | succ room =>
      have hpush : calls.push? { site with stack := calls.frames } = none :=
        push?_eq_none_of_idle (t := t) hcallee hidle
      simp only [expandCall, hpush]

/-- Beyond the number of idle templates the room of a call does not matter. -/
theorem expandCall_room {reg : Registry} {a b : Nat} {t : Template} {site : Expanded}
    {calls : CallStack} (hcallee : reg.callee? site.name = some t)
    (ha : idleTemplates reg calls.active ≤ a) (hb : idleTemplates reg calls.active ≤ b) :
    expandCall reg a t site calls = expandCall reg b t site calls := by
  induction a generalizing b t site calls with
  | zero => exact expandCall_zero_room hcallee (Nat.le_zero.mp ha) b
  | succ a ih =>
      cases b with
      | zero => exact (expandCall_zero_room hcallee (Nat.le_zero.mp hb) (a + 1)).symm
      | succ b =>
          simp only [expandCall]
          cases hpush : calls.push? { site with stack := calls.frames } with
          | none => rfl
          | some inner =>
              have hlt : idleTemplates reg inner.active < idleTemplates reg calls.active :=
                idleTemplates_push_lt (show reg.callee? { site with stack := calls.frames }.name
                  = some t from hcallee) hpush
              have hagree : AgreeWithin reg (expandCall reg a) (expandCall reg b) inner :=
                fun _ _ hcallee' => ih hcallee' (by omega) (by omega)
              simp only [expandBody_congr (expandCall_calls reg a) hagree]

/-- The calls of a run obey the recursion that knows no room: a call of an active template is
    refused, and any other stands for the text of its template, in which calls are expanded the
    same way. -/
theorem expandCall_unfold {reg : Registry} {t : Template} {site : Expanded} {calls : CallStack}
    (hcallee : reg.callee? site.name = some t) :
    expandCall reg reg.size t site calls =
      match calls.push? { site with stack := calls.frames } with
      | none => (.error (recursionError t { site with stack := calls.frames } calls), calls)
      | some inner =>
          ((expandBody reg (expandCall reg reg.size) t { site with stack := calls.frames } inner).1,
            calls) := by
  rw [expandCall_room hcallee (idleTemplates_le_size reg calls.active)
    (Nat.le_succ_of_le (idleTemplates_le_size reg calls.active))]
  simp only [expandCall]
  cases hpush : calls.push? { site with stack := calls.frames } with
  | none => rfl
  | some inner =>
      have hrestored := expandBody_calls reg (expandCall_calls reg reg.size) t
        { site with stack := calls.frames } inner
      simp only [hrestored, CallStack.pop_of_push? hpush]

end LineScript
