import LineScript.Proofs.Faults
import LineScript.Proofs.Interleaving

/-!
# Streams that stop delivering

A stream may deliver some bytes and then fail. The reader looks one line ahead, collects comment
lines before it knows what they belong to, and takes the end of input for the end of a command and
of a comment, so a failure that was taken for the end would cut an expression short. It is not: what
is given of such a stream is the start of what is given of any longer input, and then an error.

* `readFrom_cutShort_error`: there is always an error.
* `Abridged.eq_of_access_none`: only a failure of the file layer makes a difference.
* `FollowsRun.error_before_end`: a user who is told of the end has been told of the error before.
* `Reader.drain_truncated`: what a stream that fails has to do with any input that goes on.
-/

namespace LineScript

/-- A stream up to a failure is not all text. -/
theorem Stream.CutShort.ne_map_text {cut whole : Stream} (h : cut.CutShort whole)
    (ls : List Text) : cut ≠ ls.map .text := by
  induction h generalizing ls with
  | before error whole =>
      intro heq
      cases ls with
      | nil => cases heq
      | cons l ls => cases (List.cons.inj heq).1
  | inside hstart error rest =>
      intro heq
      cases ls with
      | nil => cases heq
      | cons l ls => cases (List.cons.inj heq).1
  | behind l h ih =>
      intro heq
      cases ls with
      | nil => cases heq
      | cons l' ls => exact ih ls (List.cons.inj heq).2

/-- The reading of a stream that is cut short ends with an error. -/
theorem readFrom_cutShort_error {cut whole : Stream} (h : cut.CutShort whole) (n : Nat) :
    ∃ error, (readFrom n cut).2 = some error := by
  refine Option.ne_none_iff_exists'.mp fun hnone => ?_
  obtain ⟨ls, hls⟩ := readFrom_eq_none hnone
  exact h.ne_map_text ls hls

namespace Abridged

variable {cut whole : List Expression × Option SyntaxError}

/-- Nothing is read that is not read of the whole. -/
theorem isPrefix (h : Abridged cut whole) : cut.1 <+: whole.1 := by
  rcases h with rfl | ⟨hfirst, -⟩
  · exact List.prefix_refl _
  · exact hfirst

/-- Only a failure of the file layer makes a difference. -/
theorem eq_of_access_none (h : Abridged cut whole) {e : SyntaxError} (he : cut.2 = some e)
    (hgrammar : e.flaw.access = none) : cut = whole := by
  rcases h with hsame | ⟨-, line, failure, hfails⟩
  · exact hsame
  · obtain rfl := Option.some.inj (he.symm.trans hfails)
    cases hgrammar

end Abridged

namespace FollowsRun

variable {ε α : Type} {as : List α} {error : Option ε} {asks : List Ask} {rs : List (Reply ε α)}
  {before behind : List (Reply ε α)} {r : Reply ε α}

/-- If an error ends a run, the end is given only behind that error. -/
theorem error_before_end (h : FollowsRun as error asks rs) (herror : error ≠ none)
    (hrs : rs = before ++ r :: behind) (hend : r.isEnd = true) :
    ∃ b ∈ before, ∃ e, b.error? = some e := by
  refine Classical.byContradiction fun hnone => herror ?_
  refine (h.finish before r behind hrs ?_ hend).1
  intro b hb
  refine Option.eq_none_iff_forall_ne_some.mpr fun e he => ?_
  exact hnone ⟨b, hb, e, he⟩

/-- Then `read` never gives it. -/
theorem read_ne_end (h : FollowsRun as error asks rs) (herror : error ≠ none)
    (hrs : rs = before ++ r :: behind) : r ≠ .read (.ok none) := by
  rintro rfl
  obtain ⟨b, hb, e, he⟩ := h.error_before_end herror hrs rfl
  have hagain := h.again
  rw [hrs] at hagain
  have hread := (List.pairwise_append.mp hagain).2.2 b hb _ List.mem_cons_self e he _ rfl
  cases hread

end FollowsRun

namespace Reader

/-- Whatever is asked, a reader that has not failed gives what reading alone gives. -/
theorem follows {r : Reader} (hready : r.failed = none) (asks : List Ask) :
    FollowsRun r.drain.1 r.drain.2.1 asks (replies Reader.ask r asks) := by
  have hfresh : r.supply.Fresh := by
    rw [supply, hready]
    exact Supply.fresh_ofRun _ _
  have hfollows : FollowsRun r.supply.results r.supply.error? asks
      (replies (Supply.ask true) r.supply asks) := hfresh.follows asks
  rw [← replies_eq] at hfollows
  rw [supply, Supply.results_ofRun, Supply.error?_ofRun] at hfollows
  exact hfollows

/-- A stream that fails never gives a truncated expression. Let a stream deliver the bytes `p` and
    then fail every read, and let another deliver `p` and then `q`, with the end of input or a
    failure behind it. What is read of the first are the first expressions of the second. However
    the first is asked, by `read` or by the iteration, it never reports the end of input: `read`
    gives none, and the iteration ends only when an error has been given. It ends with an error, and
    if that is not a failure of the file layer, the second ends with the same error behind the same
    expressions. -/
theorem drain_truncated (p q : Bytes) (error : AccessError) (ending : Option AccessError) :
    let cut := Reader.ofStream (.ofBytes p (some error))
    let whole := Reader.ofStream (.ofBytes (p ++ q) ending)
    cut.drain.1 <+: whole.drain.1 ∧
    (∀ asks before r behind, replies Reader.ask cut asks = before ++ r :: behind →
      r ≠ .read (.ok none) ∧ (r = .next none → ∃ b ∈ before, ∃ e, b.error? = some e)) ∧
    ∃ e, cut.drain.2.1 = some e ∧
      (e.flaw.access = none → whole.drain.1 = cut.drain.1 ∧ whole.drain.2.1 = some e) := by
  intro cut whole
  have hshort := Stream.cutShort_ofBytes p q error ending
  have hcut : (cut.drain.1, cut.drain.2.1) = readFrom 0 (.ofBytes p (some error)) :=
    drain_eq_rest rfl
  have hwhole : (whole.drain.1, whole.drain.2.1) = readFrom 0 (.ofBytes (p ++ q) ending) :=
    drain_eq_rest rfl
  obtain ⟨e, he⟩ := readFrom_cutShort_error hshort 0
  have habridged := readFrom_cutShort hshort 0
  rw [← hcut] at he
  rw [← hcut, ← hwhole] at habridged
  have herror : cut.drain.2.1 ≠ none := by
    rw [show cut.drain.2.1 = some e from he]
    exact Option.some_ne_none e
  refine ⟨habridged.isPrefix, ?_, e, he, ?_⟩
  · intro asks before r behind hrs
    have hfollows := follows (r := cut) rfl asks
    refine ⟨hfollows.read_ne_end herror hrs, ?_⟩
    rintro rfl
    exact hfollows.error_before_end herror hrs rfl
  · intro hgrammar
    obtain ⟨hexpressions, herrors⟩ := Prod.mk.inj (habridged.eq_of_access_none he hgrammar)
    exact ⟨hexpressions.symm, herrors ▸ he⟩

end Reader

end LineScript
