import LineScript.Proofs.Actions

/-!
# Asking in two ways

The next result is asked for by `read` or by `next`, in any order. Both give the results one after
another, and they differ in what comes then: `read` gives the end or the error again and again,
`next` gives the error once. An expander and a reader keep what they need for that in different
ways. This file compares both with the plainest thing that can be asked so, results with the end
or an error behind them, and proves of that what holds whatever the user does.

* `Supply`: results, then the end or an error. `Supply.ask` says what each call gives.
* `FollowsRun`: what a user can rely on, stated for the replies to one call after another.
* `Expander.replies_eq` and `Reader.replies_eq`: both give what their supply gives.
-/

namespace LineScript

/-! ## Calls and replies -/

/-- A way to ask for the next result. -/
inductive Ask where
  | read
  | next
deriving DecidableEq, Repr, Inhabited

/-- What asking gives. -/
inductive Reply (ε α : Type) where
  | read (outcome : Except ε (Option α))
  | next (outcome : Option (Except ε α))

namespace Reply

variable {ε α : Type}

/-- The call that was made. -/
def ask : Reply ε α → Ask
  | .read _ => .read
  | .next _ => .next

/-- The result that was given. -/
def result? : Reply ε α → Option α
  | .read (.ok found) => found
  | .next (some (.ok a)) => some a
  | _ => none

/-- The error that was given. -/
def error? : Reply ε α → Option ε
  | .read (.error e) => some e
  | .next (some (.error e)) => some e
  | _ => none

/-- Whether nothing was given. -/
def isEnd : Reply ε α → Bool
  | .read (.ok none) => true
  | .next none => true
  | _ => false

end Reply

/-- The replies to one call after another, from the state `s` on. -/
def replies {σ ε α : Type} (step : σ → Ask → Reply ε α × σ) (s : σ) : List Ask → List (Reply ε α)
  | [] => []
  | ask :: asks => (step s ask).1 :: replies step (step s ask).2 asks

/-- The state behind these calls. -/
def after {σ ε α : Type} (step : σ → Ask → Reply ε α × σ) (s : σ) (asks : List Ask) : σ :=
  asks.foldl (fun s ask => (step s ask).2) s

section Replies

variable {σ τ ε α : Type} {step : σ → Ask → Reply ε α × σ} {s : σ} {asks : List Ask}

/-- If every step seen through `view` is a step of something else, the replies are the same. -/
theorem replies_eq_of_view {step' : τ → Ask → Reply ε α × τ} {good : σ → Prop} (view : σ → τ)
    (hstep : ∀ s ask, good s →
      step' (view s) ask = ((step s ask).1, view (step s ask).2) ∧ good (step s ask).2)
    (hs : good s) (asks : List Ask) : replies step s asks = replies step' (view s) asks := by
  induction asks generalizing s with
  | nil => rfl
  | cons ask asks ih =>
      obtain ⟨hview, hgood⟩ := hstep s ask hs
      rw [replies, replies, hview, ih hgood]

/-- What holds between every reply and the replies to any calls behind it holds pairwise. -/
theorem pairwise_replies {R : Reply ε α → Reply ε α → Prop}
    (hstep : ∀ s ask asks, ∀ r' ∈ replies step (step s ask).2 asks, R (step s ask).1 r') (s : σ)
    (asks : List Ask) : (replies step s asks).Pairwise R := by
  induction asks generalizing s with
  | nil => exact .nil
  | cons ask asks ih => exact .cons (hstep s ask asks) (ih (step s ask).2)

/-- A reply in the middle is that of the state behind the calls before it. -/
theorem replies_eq_append {before behind : List (Reply ε α)} {r : Reply ε α}
    (h : replies step s asks = before ++ r :: behind) :
    ∃ asks₁ ask asks₂, before = replies step s asks₁ ∧ r = (step (after step s asks₁) ask).1 ∧
      behind = replies step (step (after step s asks₁) ask).2 asks₂ := by
  induction before generalizing s asks with
  | nil =>
      cases asks with
      | nil => cases h
      | cons ask asks =>
          obtain ⟨rfl, rfl⟩ := List.cons.inj h
          exact ⟨[], ask, asks, rfl, rfl, rfl⟩
  | cons b before ih =>
      cases asks with
      | nil => cases h
      | cons first asks =>
          obtain ⟨rfl, hrest⟩ := List.cons.inj h
          obtain ⟨asks₁, ask, asks₂, hbefore, hr, hbehind⟩ := ih hrest
          exact ⟨first :: asks₁, ask, asks₂, congrArg (_ :: ·) hbefore, hr, hbehind⟩

end Replies

/-- The replies to `asks` follow a run with these results and, if one ends it, this error: the
    results come in order, then the end or the error, and both are final. -/
structure FollowsRun {ε α : Type} (as : List α) (error : Option ε) (asks : List Ask)
    (rs : List (Reply ε α)) : Prop where
  /-- Every call gets its reply. -/
  calls : rs.map Reply.ask = asks
  /-- Every call gives the next result, as long as there are any. -/
  results : rs.filterMap Reply.result? = as.take asks.length
  /-- No other error is given. -/
  only : ∀ r ∈ rs, ∀ e, r.error? = some e → error = some e
  /-- Behind an error every `read` gives that error. -/
  again : rs.Pairwise fun r r' => ∀ e, r.error? = some e →
    ∀ outcome, r' = .read outcome → outcome = .error e
  /-- Behind an error that `next` gave it gives nothing more. -/
  once : rs.Pairwise fun r r' => ∀ e, r = .next (some (.error e)) →
    ∀ outcome, r' = .next outcome → outcome = none
  /-- The end, if no error was given before it, is that of the run, and nothing is given behind
      it. -/
  finish : ∀ before r behind, rs = before ++ r :: behind → (∀ b ∈ before, b.error? = none) →
    r.isEnd = true → error = none ∧ ∀ r' ∈ behind, r'.isEnd = true

/-! ## Supplies -/

/-- Results that are given one after another, and then the end or an error; of the error it is
    kept whether `next` has told it. -/
inductive Supply (ε α : Type) where
  | more (a : α) (rest : Supply ε α)
  | ended
  | failed (error : ε) (told : Bool)

namespace Supply

variable {ε α : Type}

/-- The results and the end or the error behind them. -/
def ofRun (as : List α) (error : Option ε) (told : Bool) : Supply ε α :=
  as.foldr .more (match error with
    | none => .ended
    | some e => .failed e told)

/-- All that is given. -/
def results : Supply ε α → List α
  | .more a rest => a :: rest.results
  | .ended => []
  | .failed _ _ => []

/-- The error behind the results. -/
def error? : Supply ε α → Option ε
  | .more _ rest => rest.error?
  | .ended => none
  | .failed e _ => some e

/-- What asking gives, and what is left. If `quiet`, an error that was read is as good as told. -/
def ask (quiet : Bool) : Supply ε α → Ask → Reply ε α × Supply ε α
  | .more a rest, .read => (.read (.ok (some a)), rest)
  | .more a rest, .next => (.next (some (.ok a)), rest)
  | .ended, .read => (.read (.ok none), .ended)
  | .ended, .next => (.next none, .ended)
  | .failed e told, .read => (.read (.error e), .failed e (told || quiet))
  | .failed e false, .next => (.next (some (.error e)), .failed e true)
  | .failed e true, .next => (.next none, .failed e true)

theorem results_ofRun (as : List α) (error : Option ε) (told : Bool) :
    (ofRun as error told).results = as := by
  induction as with
  | nil => cases error <;> rfl
  | cons a as ih => exact congrArg (a :: ·) ih

theorem error?_ofRun (as : List α) (error : Option ε) (told : Bool) :
    (ofRun as error told).error? = error := by
  induction as with
  | nil => cases error <;> rfl
  | cons a as ih => exact ih

variable {quiet : Bool} {e : ε} {r : Reply ε α} {asks : List Ask}

/-- A reply is to the call that was made. -/
theorem ask_reply (s : Supply ε α) (first : Ask) : (s.ask quiet first).1.ask = first := by
  match s, first with
  | .more a rest, .read => rfl
  | .more a rest, .next => rfl
  | .ended, .read => rfl
  | .ended, .next => rfl
  | .failed e told, .read => rfl
  | .failed e false, .next => rfl
  | .failed e true, .next => rfl

theorem map_ask_replies (s : Supply ε α) (asks : List Ask) :
    (replies (ask quiet) s asks).map Reply.ask = asks := by
  induction asks generalizing s with
  | nil => rfl
  | cons first asks ih => rw [replies, List.map_cons, ih, ask_reply]

/-- The results are given in order, one for every call as long as there are any. -/
theorem filterMap_replies (s : Supply ε α) (asks : List Ask) :
    (replies (ask quiet) s asks).filterMap Reply.result? = s.results.take asks.length := by
  induction asks generalizing s with
  | nil => rfl
  | cons first asks ih =>
      rw [replies, List.length_cons]
      match s, first with
      | .more a rest, .read => exact congrArg (a :: ·) (ih rest)
      | .more a rest, .next => exact congrArg (a :: ·) (ih rest)
      | .ended, .read => exact (ih .ended).trans List.take_nil
      | .ended, .next => exact (ih .ended).trans List.take_nil
      | .failed e told, .read => exact (ih (.failed e (told || quiet))).trans List.take_nil
      | .failed e false, .next => exact (ih (.failed e true)).trans List.take_nil
      | .failed e true, .next => exact (ih (.failed e true)).trans List.take_nil

/-- Behind the end nothing is given. -/
theorem isEnd_of_ended (h : r ∈ replies (ask quiet) .ended asks) : r.isEnd = true := by
  induction asks with
  | nil => cases h
  | cons first asks ih =>
      cases first with
      | read =>
          rcases List.mem_cons.mp h with rfl | h
          · rfl
          · exact ih h
      | next =>
          rcases List.mem_cons.mp h with rfl | h
          · rfl
          · exact ih h

/-- Behind an error `read` gives the error, and `next` too unless it is told. -/
theorem cases_of_failed {told : Bool} (h : r ∈ replies (ask quiet) (.failed e told) asks) :
    r = .read (.error e) ∨ (r = .next (some (.error e)) ∧ told = false) ∨ r = .next none := by
  induction asks generalizing told with
  | nil => cases h
  | cons first asks ih =>
      match first, told with
      | .read, told =>
          rcases List.mem_cons.mp h with rfl | h
          · exact .inl rfl
          · rcases ih h with hr | ⟨hr, huntold⟩ | hr
            · exact .inl hr
            · exact .inr (.inl ⟨hr, (Bool.or_eq_false_iff.mp huntold).1⟩)
            · exact .inr (.inr hr)
      | .next, false =>
          rcases List.mem_cons.mp h with rfl | h
          · exact .inr (.inl ⟨rfl, rfl⟩)
          · rcases ih h with hr | ⟨-, huntold⟩ | hr
            · exact .inl hr
            · cases huntold
            · exact .inr (.inr hr)
      | .next, true =>
          rcases List.mem_cons.mp h with rfl | h
          · exact .inr (.inr rfl)
          · exact ih h

/-- An error that is given is behind all results, and is told unless it was read and that does not
    count. -/
theorem failed_of_error {s : Supply ε α} {first : Ask}
    (h : (s.ask quiet first).1.error? = some e) :
    ∃ told told', s = .failed e told ∧ (s.ask quiet first).2 = .failed e told' ∧
      (told' = true ∨ (quiet = false ∧ first = .read)) := by
  match s, first with
  | .more a rest, .read => cases h
  | .more a rest, .next => cases h
  | .ended, .read => cases h
  | .ended, .next => cases h
  | .failed e' told, .read =>
      obtain rfl : e' = e := Option.some.inj h
      refine ⟨told, told || quiet, rfl, rfl, ?_⟩
      cases quiet with
      | true => exact .inl (Bool.or_true told)
      | false => exact .inr ⟨rfl, rfl⟩
  | .failed e' false, .next =>
      obtain rfl : e' = e := Option.some.inj h
      exact ⟨false, true, rfl, rfl, .inl rfl⟩
  | .failed e' true, .next => cases h

/-- An error stays behind all results, whatever is asked. -/
theorem after_failed (e : ε) (told : Bool) (asks : List Ask) :
    ∃ told', after (ask quiet) (.failed e told : Supply ε α) asks = .failed e told' := by
  induction asks generalizing told with
  | nil => exact ⟨told, rfl⟩
  | cons first asks ih =>
      match first, told with
      | .read, told => exact ih (told || quiet)
      | .next, false => exact ih true
      | .next, true => exact ih true

theorem after_of_error {s : Supply ε α} (hr : r ∈ replies (ask quiet) s asks)
    (he : r.error? = some e) : ∃ told, after (ask quiet) s asks = .failed e told := by
  induction asks generalizing s with
  | nil => cases hr
  | cons first asks ih =>
      rcases List.mem_cons.mp hr with rfl | hr
      · obtain ⟨-, told, -, hnext, -⟩ := failed_of_error he
        rw [after, List.foldl_cons, hnext]
        exact after_failed e told asks
      · exact ih hr

/-- Of an error behind the results nothing is told yet. -/
def Fresh : Supply ε α → Prop
  | .more _ rest => rest.Fresh
  | .ended => True
  | .failed _ told => told = false

theorem fresh_ofRun (as : List α) (error : Option ε) : (ofRun as error false).Fresh := by
  induction as with
  | nil =>
      cases error with
      | none => trivial
      | some e => rfl
  | cons a as ih => exact ih

/-- That stays so as long as no error is given, or one is only read and that does not count. -/
theorem Fresh.after {s : Supply ε α} (h : s.Fresh)
    (hreplies : ∀ r ∈ replies (ask quiet) s asks,
      r.error? = none ∨ (quiet = false ∧ r.ask = .read)) :
    (after (ask quiet) s asks).Fresh := by
  induction asks generalizing s with
  | nil => exact h
  | cons first asks ih =>
      have hfirst := hreplies _ List.mem_cons_self
      refine ih ?_ fun r hr => hreplies r (List.mem_cons_of_mem _ hr)
      match s, first with
      | .more a rest, .read => exact h
      | .more a rest, .next => exact h
      | .ended, .read => trivial
      | .ended, .next => trivial
      | .failed e told, .read =>
          obtain rfl : told = false := h
          rcases hfirst with hnone | ⟨rfl, -⟩
          · cases hnone
          · rfl
      | .failed e false, .next =>
          rcases hfirst with hnone | ⟨-, hread⟩
          · cases hnone
          · cases hread
      | .failed e true, .next => cases h

/-- Asking does not change the error behind the results. -/
theorem error?_ask (s : Supply ε α) (first : Ask) : (s.ask quiet first).2.error? = s.error? := by
  match s, first with
  | .more a rest, .read => rfl
  | .more a rest, .next => rfl
  | .ended, .read => rfl
  | .ended, .next => rfl
  | .failed e told, .read => rfl
  | .failed e false, .next => rfl
  | .failed e true, .next => rfl

theorem error?_after (s : Supply ε α) (asks : List Ask) :
    (after (ask quiet) s asks).error? = s.error? := by
  induction asks generalizing s with
  | nil => rfl
  | cons first asks ih => exact (ih (s.ask quiet first).2).trans (error?_ask s first)

/-- The replies of a supply of which nothing is told follow the run that it stands for. -/
theorem Fresh.follows {s : Supply ε α} (hfresh : s.Fresh) (asks : List Ask) :
    FollowsRun s.results s.error? asks (replies (ask quiet) s asks) := by
  refine ⟨map_ask_replies s asks, filterMap_replies s asks, ?only, ?again, ?once, ?finish⟩
  case only =>
    intro r hr e he
    obtain ⟨told, hafter⟩ := after_of_error hr he
    rw [← error?_after s asks, hafter]
    rfl
  case again =>
    refine pairwise_replies (fun s first asks r' hr' e he outcome houtcome => ?_) s asks
    obtain ⟨-, told, -, hnext, -⟩ := failed_of_error he
    rw [hnext] at hr'
    subst houtcome
    rcases cases_of_failed hr' with hread | ⟨hother, -⟩ | hother
    · exact Reply.read.inj hread
    · cases hother
    · cases hother
  case once =>
    refine pairwise_replies (fun s first asks r' hr' e he outcome houtcome => ?_) s asks
    obtain ⟨-, told, -, hnext, htold⟩ := failed_of_error (congrArg Reply.error? he)
    have hcall : first = .next := (ask_reply s first).symm.trans (congrArg Reply.ask he)
    obtain rfl : told = true := htold.resolve_right fun hread => by cases hcall.symm.trans hread.2
    rw [hnext] at hr'
    subst houtcome
    rcases cases_of_failed hr' with hother | ⟨-, huntold⟩ | hnone
    · cases hother
    · cases huntold
    · exact Reply.next.inj hnone
  case finish =>
    intro before r behind happend hbefore hend
    obtain ⟨asks₁, first, asks₂, rfl, rfl, rfl⟩ := replies_eq_append happend
    have hstill := hfresh.after (fun b hb => .inl (hbefore b hb))
    have hkept : (LineScript.after (ask quiet) s asks₁).error? = s.error? := error?_after s asks₁
    rw [← hkept]
    -- nothing is given and nothing was told: there is no error behind the results
    generalize LineScript.after (ask quiet) s asks₁ = t at hstill hend ⊢
    match t, first with
    | .more a rest, .read => cases hend
    | .more a rest, .next => cases hend
    | .ended, .read => exact ⟨rfl, fun r' hr' => isEnd_of_ended hr'⟩
    | .ended, .next => exact ⟨rfl, fun r' hr' => isEnd_of_ended hr'⟩
    | .failed e told, .read => cases hend
    | .failed e false, .next => cases hend
    | .failed e true, .next => cases hstill

/-- If an error that was read counts as told, `next` gives nothing behind any error. -/
theorem pairwise_next_none (s : Supply ε α) (asks : List Ask) :
    (replies (ask true) s asks).Pairwise fun r r' => ∀ e, r.error? = some e →
      ∀ outcome, r' = .next outcome → outcome = none := by
  refine pairwise_replies (fun s first asks r' hr' e he outcome houtcome => ?_) s asks
  obtain ⟨-, told, -, hnext, htold⟩ := failed_of_error he
  obtain rfl : told = true := htold.resolve_right fun hread => by cases hread.1
  rw [hnext] at hr'
  subst houtcome
  rcases cases_of_failed hr' with hother | ⟨-, huntold⟩ | hnone
  · cases hother
  · cases huntold
  · exact Reply.next.inj hnone

/-- If it does not count, `next` gives an error that was read, unless it has given it before. -/
theorem Fresh.next_of_untold {s : Supply ε α} (hfresh : s.Fresh)
    {before behind : List (Reply ε α)} {outcome : Option (Except ε α)}
    (happend : replies (ask false) s asks = before ++ .next outcome :: behind)
    (hgiven : ∃ b ∈ before, b.error? = some e)
    (huntold : ∀ b ∈ before, ∀ e', b ≠ .next (some (.error e'))) :
    outcome = some (.error e) := by
  obtain ⟨asks₁, first, asks₂, rfl, hreply, -⟩ := replies_eq_append happend
  have hstill : (LineScript.after (ask false) s asks₁).Fresh := hfresh.after fun b hb => by
    match b, huntold b hb with
    | .read outcome, _ => exact .inr ⟨rfl, rfl⟩
    | .next none, _ => exact .inl rfl
    | .next (some (.ok a)), _ => exact .inl rfl
    | .next (some (.error e')), hother => exact absurd rfl (hother e')
  obtain ⟨b, hb, he⟩ := hgiven
  obtain ⟨told, hfailed⟩ := after_of_error hb he
  rw [hfailed] at hstill hreply
  obtain rfl : told = false := hstill
  obtain rfl : first = .next := (ask_reply _ first).symm.trans (congrArg Reply.ask hreply.symm)
  exact Reply.next.inj hreply

end Supply

/-! ## Expanders -/

namespace Expander

variable {x y : Expander} {error : ExpansionError}
  {outcome : Except ExpansionError (Option Expanded)}

/-- Asks a run. -/
def ask (x : Expander) : Ask → Reply ExpansionError Expanded × Expander
  | .read => (.read x.read.1, x.read.2)
  | .next => (.next x.next.1, x.next.2)

/-- What a run gives from now on. -/
def supply (x : Expander) : Supply ExpansionError Expanded :=
  .ofRun x.drain.1 x.drain.2.1 x.reported

theorem reported_start (fs : FileSystem) (options : Options) (script : Text) :
    (start fs options script).reported = false := by
  unfold start
  split <;> rfl

theorem reported_of_executes {e : Expanded} {results : Except ExpansionError (List Expanded)}
    (h : x.Executes e results y) : y.reported = x.reported := by
  cases effect_of_execute (executes_iff.mp h) <;> rfl

/-- Looking for the next result tells no error. -/
theorem reported_of_advances (h : x.Advances outcome y) : y.reported = x.reported := by
  induction h with
  | handOut hpending => rfl
  | finish hpending hfiles => rfl
  | malformed hpending hfiles hread => rfl
  | leave hpending hfiles hread _ ih => exact ih
  | fail hpending hfiles hread hexec =>
      have hkept := reported_of_executes hexec
      exact hkept
  | carryOut hpending hfiles hread hexec _ ih =>
      have hkept := reported_of_executes hexec
      exact ih.trans hkept

theorem reported_of_read (hread : x.read = (outcome, y)) : y.reported = x.reported := by
  cases reads_iff.mpr hread with
  | poisoned hstatus => rfl
  | finished hstatus => rfl
  | give hstatus hadvance => exact reported_of_advances hadvance
  | finish hstatus hadvance =>
      have hkept := reported_of_advances hadvance
      exact hkept
  | fail hstatus hadvance =>
      have hkept := reported_of_advances hadvance
      exact hkept

/-- The end is given again. -/
theorem read_of_read_none (hread : x.read = (.ok none, y)) : y.read = (.ok none, y) := by
  cases reads_iff.mpr hread with
  | finished hstatus => exact hread
  | finish hstatus hadvance => rfl

theorem supply_of_some {e : Expanded} (hread : x.read = (.ok (some e), y)) :
    x.supply = .more e y.supply := by
  rw [supply, drain, hread, ← reported_of_read hread]
  rfl

theorem supply_of_none (hread : x.read = (.ok none, y)) : x.supply = .ended := by
  rw [supply, drain, hread]
  rfl

theorem supply_of_error (hread : x.read = (.error error, y)) :
    x.supply = .failed error x.reported := by
  rw [supply, drain, hread]
  rfl

theorem supply_of_poisoned (hstatus : x.status = .poisoned error) :
    x.supply = .failed error x.reported :=
  supply_of_error (reads_iff.mp (.poisoned hstatus))

/-- An error that `next` has given is the one that ended the run. -/
def ToldOnlyErrors (x : Expander) : Prop :=
  x.reported = true → ∃ error, x.status = .poisoned error

/-- As long as a run does not fail no error is told. -/
theorem ToldOnlyErrors.untold (htold : x.ToldOnlyErrors) {found : Option Expanded}
    (hread : x.read = (.ok found, y)) : x.reported = false ∧ y.reported = false := by
  have huntold : x.reported = false := by
    cases hreported : x.reported with
    | false => rfl
    | true =>
        obtain ⟨error, hstatus⟩ := htold hreported
        rw [read, hstatus] at hread
        cases hread
  exact ⟨huntold, (reported_of_read hread).trans huntold⟩

theorem toldOnlyErrors_of_untold (huntold : x.reported = false) : x.ToldOnlyErrors := by
  intro htold
  rw [huntold] at htold
  cases htold

/-- Every call to a run gives what its supply gives, and leaves what the supply leaves. -/
theorem ask_supply (htold : x.ToldOnlyErrors) (first : Ask) :
    x.supply.ask false first = ((x.ask first).1, (x.ask first).2.supply) ∧
      (x.ask first).2.ToldOnlyErrors := by
  rcases hread : x.read with ⟨error | _ | e, y⟩
  · have hstatus := status_of_read_error hread
    have hkept := reported_of_read hread
    cases first with
    | read =>
        simp only [ask, hread]
        rw [supply_of_error hread, supply_of_poisoned hstatus, hkept]
        exact ⟨by rw [Supply.ask, Bool.or_false], fun _ => ⟨error, hstatus⟩⟩
    | next =>
        cases hx : x.reported with
        | true =>
            simp only [ask, next, hx, if_true]
            rw [supply_of_error hread, hx]
            exact ⟨rfl, htold⟩
        | false =>
            simp only [ask, next, hx, hread, Bool.false_eq_true, if_false]
            have hpoisoned : { y with reported := true }.status = .poisoned error := hstatus
            rw [supply_of_error hread, supply_of_poisoned hpoisoned, hx]
            exact ⟨rfl, fun _ => ⟨error, hstatus⟩⟩
  · obtain ⟨hx, hy⟩ := htold.untold hread
    have hagain := supply_of_none (read_of_read_none hread)
    rw [supply_of_none hread]
    cases first with
    | read =>
        simp only [ask, hread, hagain]
        exact ⟨rfl, toldOnlyErrors_of_untold hy⟩
    | next =>
        simp only [ask, next, hx, hread, Bool.false_eq_true, if_false, hagain]
        exact ⟨rfl, toldOnlyErrors_of_untold hy⟩
  · obtain ⟨hx, hy⟩ := htold.untold hread
    rw [supply_of_some hread]
    cases first with
    | read =>
        simp only [ask, hread]
        exact ⟨rfl, toldOnlyErrors_of_untold hy⟩
    | next =>
        simp only [ask, next, hx, hread, Bool.false_eq_true, if_false]
        exact ⟨rfl, toldOnlyErrors_of_untold hy⟩

/-- Whatever is asked, a run gives what its supply gives. -/
theorem replies_eq (htold : x.ToldOnlyErrors) (asks : List Ask) :
    replies ask x asks = replies (Supply.ask false) x.supply asks :=
  replies_eq_of_view supply (fun _ first htold => ask_supply htold first) htold asks

end Expander

/-! ## Readers -/

namespace Reader

variable {r r' : Reader} {error : SyntaxError}

/-- Asks a reader. -/
def ask (r : Reader) : Ask → Reply SyntaxError Expression × Reader
  | .read => (.read r.read.1, r.read.2)
  | .next => (.next r.next.1, r.next.2)

/-- What a reader gives from now on. -/
def supply (r : Reader) : Supply SyntaxError Expression :=
  .ofRun r.drain.1 r.drain.2.1 r.failed.isSome

theorem supply_of_failed (hfailed : r.failed = some error) : r.supply = .failed error true := by
  have hread : r.read = (.error error, r) := by rw [read, hfailed]
  rw [supply, drain, hread, hfailed]
  rfl

theorem supply_of_none (hread : r.read = (.ok none, r')) : r.supply = .ended := by
  rw [supply, drain, hread]
  rfl

theorem supply_of_some (hready : r.failed = none) {e : Expression}
    (hread : r.read = (.ok (some e), r')) : r.supply = .more e r'.supply := by
  rw [supply, drain, hread, hready, supply, ready_of_read_some hready hread]
  rfl

theorem supply_of_error (hready : r.failed = none) (hread : r.read = (.error error, r')) :
    r.supply = .failed error false := by
  rw [supply, drain, hread, hready]
  rfl

/-- An error is kept. -/
theorem failed_of_read_error (hready : r.failed = none) (hread : r.read = (.error error, r')) :
    r'.failed = some error := by
  rw [read, hready] at hread
  obtain ⟨hresult, rfl⟩ := Prod.mk.inj hread
  simp only [hresult]

/-- The end is given again. -/
theorem read_of_read_none (hready : r.failed = none) (hread : r.read = (.ok none, r')) :
    ∃ r'', r'.read = (.ok none, r'') := by
  have hend : ∀ n, readExpression n [] [] = ⟨.ok none, [], n + 1⟩ := fun n => by
    rw [readExpression, if_pos rfl]
  obtain ⟨hresult, -, -⟩ := read_of_ready hready
  rw [hread] at hresult
  obtain ⟨hahead, -⟩ := readExpression_eq_none hresult.symm
  rw [read, hready, hahead, hend] at hread
  obtain ⟨-, rfl⟩ := Prod.mk.inj hread
  refine ⟨⟨[], r.line + 2, none⟩, ?_⟩
  simp only [read, hend]

/-- Every call to a reader gives what its supply gives, and leaves what the supply leaves. -/
theorem ask_supply (r : Reader) (first : Ask) :
    r.supply.ask true first = ((r.ask first).1, (r.ask first).2.supply) := by
  cases hfailed : r.failed with
  | some error =>
      have hread : r.read = (.error error, r) := by rw [read, hfailed]
      cases first with
      | read =>
          simp only [ask, hread, supply_of_failed hfailed]
          rfl
      | next =>
          simp only [ask, next, hfailed, supply_of_failed hfailed]
          rfl
  | none =>
      rcases hread : r.read with ⟨error | _ | e, r'⟩
      · have hkept := supply_of_failed (failed_of_read_error hfailed hread)
        rw [supply_of_error hfailed hread]
        cases first with
        | read =>
            simp only [ask, hread, hkept]
            rfl
        | next =>
            simp only [ask, next, hfailed, hread, hkept]
            rfl
      · obtain ⟨r'', hread'⟩ := read_of_read_none hfailed hread
        have hagain := supply_of_none hread'
        rw [supply_of_none hread]
        cases first with
        | read =>
            simp only [ask, hread, hagain]
            rfl
        | next =>
            simp only [ask, next, hfailed, hread, hagain]
            rfl
      · rw [supply_of_some hfailed hread]
        cases first with
        | read =>
            simp only [ask, hread]
            rfl
        | next =>
            simp only [ask, next, hfailed, hread]
            rfl

/-- Whatever is asked, a reader gives what its supply gives. -/
theorem replies_eq (r : Reader) (asks : List Ask) :
    replies ask r asks = replies (Supply.ask true) r.supply asks := by
  have hstep : ∀ r first, True →
      (supply r).ask true first = ((ask r first).1, (ask r first).2.supply) ∧ True :=
    fun r first _ => ⟨ask_supply r first, trivial⟩
  exact replies_eq_of_view supply hstep trivial asks

end Reader

/-! ## What a user can rely on -/

/-- Whatever is asked and in whatever order, a run of expansion and a reader of a file give what
    reading alone gives, and the end and an error are final. They differ in one thing: an error
    that was read is still given once by the iteration of a run, and never by that of a reader. -/
theorem replies_follow :
    (∀ fs options script asks, let x := Expander.start fs options script
      FollowsRun x.drain.1 x.drain.2.1 asks (replies Expander.ask x asks) ∧
      ∀ before outcome behind,
        replies Expander.ask x asks = before ++ .next outcome :: behind →
        ∀ e, (∃ b ∈ before, b.error? = some e) →
          (∀ b ∈ before, ∀ e', b ≠ .next (some (.error e'))) → outcome = some (.error e)) ∧
    ∀ bytes fault asks, let r := Reader.ofStream (.ofBytes bytes fault)
      FollowsRun r.drain.1 r.drain.2.1 asks (replies Reader.ask r asks) ∧
      (replies Reader.ask r asks).Pairwise fun r r' => ∀ e, r.error? = some e →
        ∀ outcome, r' = .next outcome → outcome = none := by
  constructor
  · intro fs options script asks x
    have hreported : x.reported = false := Expander.reported_start fs options script
    have hfresh : x.supply.Fresh := by
      rw [Expander.supply, hreported]
      exact Supply.fresh_ofRun _ _
    rw [Expander.replies_eq (Expander.toldOnlyErrors_of_untold hreported)]
    constructor
    · have hfollows : FollowsRun x.supply.results x.supply.error? asks
          (replies (Supply.ask false) x.supply asks) := hfresh.follows asks
      rw [Expander.supply, Supply.results_ofRun, Supply.error?_ofRun] at hfollows
      exact hfollows
    · intro before outcome behind happend e hgiven huntold
      exact hfresh.next_of_untold happend hgiven huntold
  · intro bytes fault asks r
    have hfresh : r.supply.Fresh := Supply.fresh_ofRun _ _
    rw [Reader.replies_eq]
    refine ⟨?_, Supply.pairwise_next_none _ asks⟩
    have hfollows : FollowsRun r.supply.results r.supply.error? asks
        (replies (Supply.ask true) r.supply asks) := hfresh.follows asks
    rw [Reader.supply, Supply.results_ofRun, Supply.error?_ofRun] at hfollows
    exact hfollows

end LineScript
