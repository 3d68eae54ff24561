import LineScript.Proofs.Evaluator
import LineScript.Proofs.Reading

/-!
# The turns of a run

A run takes turns: it hands out a result that waits, leaves a file at its end, or carries out the
next expression of the innermost file, which has one of the effects of `Effect`.

* `Turn`: one turn, where the results of an expression first all wait.
* `Tokenises`: the expressions of files that a run comes to.
-/

namespace LineScript

namespace Expander

/-- One turn of a run that goes on: a result that waits is handed out, a file is left at its end,
    or an expression of the innermost file is carried out and its results wait. -/
inductive Turn : Expander → Expander → Prop where
  | handOut {x : Expander} {e : Expanded} {pending : List Expanded}
      (hpending : x.pending = e :: pending) : Turn x { x with pending }
  | leave {x : Expander} {frame : FileFrame} {outer : List FileFrame} {reader : Reader}
      (hpending : x.pending = []) (hfiles : x.files = frame :: outer)
      (hread : frame.reader.read = (.ok none, reader)) :
      Turn x { x with files := outer, includes := x.includes.pop }
  | carryOut {x y : Expander} {frame : FileFrame} {outer : List FileFrame} {raw : Expression}
      {reader : Reader} {results : List Expanded}
      (hpending : x.pending = []) (hfiles : x.files = frame :: outer)
      (hread : frame.reader.read = (.ok (some raw), reader))
      (hexec : execute { x with files := { frame with reader } :: outer }
        (.ofExpression raw (x.options.displayPath frame.name)) = (.ok results, y)) :
      Turn x { y with pending := results }

/-- A result that waits is the next one. -/
theorem advance_handOut {x : Expander} {e : Expanded} {pending : List Expanded}
    (hpending : x.pending = e :: pending) : x.advance = (.ok (some e), { x with pending }) := by
  rw [advance]
  split
  · rename_i e' pending' hwaits
    obtain ⟨rfl, rfl⟩ := List.cons.inj (hpending.symm.trans hwaits)
    rfl
  · rename_i hnone
    rw [hpending] at hnone
    cases hnone

/-- With nothing waiting and no file open there is no next result. -/
theorem advance_finish {x : Expander} (hpending : x.pending = []) (hfiles : x.files = []) :
    x.advance = (.ok none, x) := by
  rw [advance]
  split
  · rename_i hwaits
    rw [hpending] at hwaits
    cases hwaits
  · split
    · rfl
    · rename_i hsome
      rw [hfiles] at hsome
      cases hsome

/-- Otherwise the next result comes from the innermost file. -/
theorem advance_read {x : Expander} {frame : FileFrame} {outer : List FileFrame}
    (hpending : x.pending = []) (hfiles : x.files = frame :: outer) :
    x.advance =
      match frame.reader.read with
      | (.error error, reader) =>
          (.error (.ofSyntax (x.options.displayPath frame.name) error),
            { x with files := { frame with reader } :: outer })
      | (.ok none, _) => advance { x with files := outer, includes := x.includes.pop }
      | (.ok (some raw), reader) =>
          match execute { x with files := { frame with reader } :: outer }
              (.ofExpression raw (x.options.displayPath frame.name)) with
          | (.error error, y) => (.error error, y)
          | (.ok results, y) => advance { y with pending := results } := by
  rw [advance]
  split
  · rename_i hwaits
    rw [hpending] at hwaits
    cases hwaits
  · split
    · rename_i hnone
      rw [hfiles] at hnone
      cases hnone
    · rename_i frame' outer' hsome
      obtain ⟨rfl, rfl⟩ := List.cons.inj (hfiles.symm.trans hsome)
      split
      · rename_i hread; rw [hread]
      · rename_i hread; rw [hread]
      · rename_i raw reader hread
        simp only [hread]
        split
        · rename_i hexec; rw [hexec]
        · rename_i y hexec
          rw [hexec]
          have hnone : y.pending = [] := (effect_of_execute hexec).unchanged.2.2.1.trans hpending
          show y.advance = advance { y with pending := [] }
          rw [← hnone]
        · rename_i first pending y hexec
          rw [hexec]
          exact (advance_handOut (show { y with pending := first :: pending }.pending
            = first :: pending from rfl)).symm

/-- The run comes to the expression `e` of a file. -/
inductive Tokenises : Expander → Expanded → Prop where
  | now {x : Expander} {frame : FileFrame} {outer : List FileFrame} {raw : Expression}
      {reader : Reader} (hpending : x.pending = []) (hfiles : x.files = frame :: outer)
      (hread : frame.reader.read = (.ok (some raw), reader)) :
      Tokenises x (.ofExpression raw (x.options.displayPath frame.name))
  | later {x y : Expander} {e : Expanded} (hturn : Turn x y) (hcomes : Tokenises y e) :
      Tokenises x e

end Expander

end LineScript
