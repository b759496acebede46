/-
  Cursors.Proofs.Lookahead
  ────────────────────────
  **A LOOK-AHEAD DELIVERS WHAT ITS SOURCE GAVE.**

  The steps of a plain source come in any order: elements, failures, ends,
  and elements again behind an end.  A look at a source finds one of five
  things (`Look`), of which three take a step:

      held      an element was pulled before
      past      the source has ended
      found     the step gives an element, which is held
      ended     the step is an end
      failed    the step fails otherwise, and nothing else has changed

  A question tells what the look found, a step hands out what it holds then.
  So at every moment the elements returned, and the one that is held, are
  those that the source gave before its first end (`Feed.produced`).
-/
import Mathlib.Data.List.TakeWhile
import Cursors.Proofs.Ending.Course
import Cursors.Proofs.Pipeline.Denotation

namespace Cursors

variable {α : Type}

/-! ## §1. What comes before an end. -/

namespace Feed

/-- The step is no end. -/
def goesOn : Except Failure α → Bool
  | .ok _ => true
  | .error e => !e.isEnd

/-- The elements that the first `n` steps give before the first end among them. -/
def produced (steps : Nat → Except Failure α) (n : Nat) : List α :=
  (((List.range n).map steps).takeWhile goesOn).filterMap Except.toOption

variable {steps : Nat → Except Failure α} {n : Nat}

theorem not_goesOn_iff {r : Except Failure α} :
    ¬ goesOn r = true ↔ ∃ e, r = .error e ∧ e.isEnd = true := by
  cases r with
  | ok x => simp [goesOn]
  | error e => simp [goesOn]

/-- As long as there was no end, all steps go on. -/
theorem goesOn_of_not_ends (h : ¬ Ends steps n) :
    ∀ r ∈ (List.range n).map steps, goesOn r = true := by
  intro r hr
  obtain ⟨k, hk, rfl⟩ := List.mem_map.mp hr
  by_contra hend
  obtain ⟨e, hstep, he⟩ := not_goesOn_iff.mp hend
  exact h ⟨k, e, List.mem_range.mp hk, hstep, he⟩

theorem not_ends_succ (h : ¬ Ends steps n) (hstep : goesOn (steps n) = true) :
    ¬ Ends steps (n + 1) := by
  rintro ⟨k, e, hk, hend, he⟩
  obtain hlt | rfl := Nat.lt_succ_iff_lt_or_eq.mp hk
  · exact h ⟨k, e, hlt, hend, he⟩
  · exact not_goesOn_iff.mpr ⟨e, hend, he⟩ hstep

/-- A step before which there was no end gives what it gives. -/
theorem produced_succ (h : ¬ Ends steps n) :
    produced steps (n + 1) = produced steps n ++ (steps n).toOption.toList := by
  have hbefore := goesOn_of_not_ends h
  have hall : ((List.range n).map steps).takeWhile goesOn = (List.range n).map steps :=
    List.takeWhile_eq_self_iff.mpr hbefore
  unfold produced
  rw [List.range_succ, List.map_append, List.takeWhile_append_of_pos hbefore, hall,
    List.filterMap_append]
  congr 1
  rw [List.map_singleton]
  cases steps n with
  | ok x => rfl
  | error e =>
      rw [List.takeWhile_cons]
      split <;> rfl

/-- What comes after an end does not count. -/
theorem produced_of_ends {m : Nat} (h : Ends steps n) (hle : n ≤ m) :
    produced steps m = produced steps n := by
  obtain ⟨k, rfl⟩ := Nat.exists_eq_add_of_le hle
  obtain ⟨j, e, hj, hstep, he⟩ := h
  have hmem : ∃ r ∈ (List.range n).map steps, ¬ goesOn r = true :=
    ⟨steps j, List.mem_map_of_mem (List.mem_range.mpr hj), not_goesOn_iff.mpr ⟨e, hstep, he⟩⟩
  unfold produced
  rw [List.range_add, List.map_append, List.takeWhile_append, if_neg]
  intro hlength
  obtain ⟨r, hr, hend⟩ := hmem
  have hall := (List.takeWhile_prefix goesOn).eq_of_length hlength
  exact hend (List.takeWhile_eq_self_iff.mp hall r hr)

end Feed

namespace Lookahead

open Feed (Ends goesOn produced source)

/-! ## §2. Looking. -/

/-- What a look finds, from a state of the look-ahead and a number of steps taken. -/
inductive Look (steps : Nat → Except Failure α) :
    Peek α × Nat → Except Failure Bool → Peek α × Nat → Prop where
  | held {x : α} {ended : Bool} {n : Nat} :
      Look steps (⟨some x, ended⟩, n) (.ok true) (⟨some x, ended⟩, n)
  | past {n : Nat} : Look steps (⟨none, true⟩, n) (.ok false) (⟨none, true⟩, n)
  | found {x : α} {n : Nat} (hstep : steps n = .ok x) :
      Look steps (⟨none, false⟩, n) (.ok true) (⟨some x, false⟩, n + 1)
  | ended {e : Failure} {n : Nat} (hstep : steps n = .error e) (he : e.isEnd = true) :
      Look steps (⟨none, false⟩, n) (.ok false) (⟨none, true⟩, n + 1)
  | failed {e : Failure} {n : Nat} (hstep : steps n = .error e) (he : ¬ e.isEnd = true) :
      Look steps (⟨none, false⟩, n) (.error e) (⟨none, false⟩, n + 1)

section

variable {steps : Nat → Except Failure α} {t t' : Peek α × Nat} {r : Except Failure Bool}

theorem hasNext_look (steps : Nat → Except Failure α) (t : Peek α × Nat) :
    ∃ r t', (source steps).hasNext t = .of r t' ∧ Look steps t r t' := by
  show ∃ r t', Peek.hasNext .left (Feed.pull steps .right) t = .of r t' ∧ Look steps t r t'
  obtain ⟨⟨ahead, ended⟩, n⟩ := t
  match ahead, ended with
  | some x, ended => exact ⟨.ok true, (⟨some x, ended⟩, n), Peek.hasNext_of_held rfl, .held⟩
  | none, true => exact ⟨.ok false, (⟨none, true⟩, n), Peek.hasNext_of_ended rfl rfl, .past⟩
  | none, false =>
      have hpull : Feed.pull steps .right ((⟨none, false⟩, n) : Peek α × Nat)
          = .of (steps n) (⟨none, false⟩, n + 1) := Feed.pull_apply _
      cases hstep : steps n with
      | ok x =>
          rw [hstep] at hpull
          exact ⟨.ok true, (⟨some x, false⟩, n + 1), Peek.hasNext_of_value rfl rfl hpull,
            .found hstep⟩
      | error e =>
          rw [hstep] at hpull
          by_cases he : e.isEnd = true
          · exact ⟨.ok false, (⟨none, true⟩, n + 1), Peek.hasNext_of_end rfl rfl hpull he,
              .ended hstep he⟩
          · exact ⟨.error e, (⟨none, false⟩, n + 1), Peek.hasNext_of_failure rfl rfl hpull he,
              .failed hstep he⟩

/-- What a step makes of what the look before it found. -/
def handed (t : Peek α × Nat) : Except Failure Bool → Except Failure α
  | .error e => .error e
  | .ok _ =>
      match t.1.ahead with
      | some x => .ok x
      | none => .error .ended

/-- After a step nothing is held. -/
def emptied (t : Peek α × Nat) : Peek α × Nat := ({ t.1 with ahead := none }, t.2)

theorem next_look (steps : Nat → Except Failure α) (t : Peek α × Nat) :
    ∃ r t', (source steps).next t = .of (handed t' r) (emptied t') ∧ Look steps t r t' := by
  obtain ⟨r, t', hask, hlook⟩ := hasNext_look steps t
  refine ⟨r, t', ?_, hlook⟩
  have hask' : Peek.hasNext .left (Feed.pull steps .right) t = .of r t' := hask
  show Peek.next .left (Feed.pull steps .right) t = _
  unfold Peek.next
  rw [Act.bind_apply, hask']
  cases hlook <;> rfl

/-- After a look something is held just if it said so. -/
theorem Look.told (h : Look steps t r t') {b : Bool} (hr : r = .ok b) :
    b = t'.1.ahead.isSome := by
  cases h <;> cases hr <;> rfl

/-- Where something is held, a look takes no step. -/
theorem Look.still (h : Look steps t r t') (hheld : t.1.ahead.isSome = true) :
    r = .ok true ∧ t' = t := by
  cases h with
  | held => exact ⟨rfl, rfl⟩
  | past | found | ended | failed => exact nomatch hheld

theorem Look.one (h : Look steps t r t') : t'.2 = t.2 ∨ t'.2 = t.2 + 1 := by
  cases h with
  | held | past => exact .inl rfl
  | found | ended | failed => exact .inr rfl

/-- A look fails just if its step fails without being an end. -/
theorem Look.error_iff (h : Look steps t r t') (e : Failure) :
    r = .error e ↔ t'.2 = t.2 + 1 ∧ steps t.2 = .error e ∧ e.isEnd = false := by
  cases h with
  | held | past =>
      constructor
      · exact nofun
      · rintro ⟨hsucc, -⟩
        exact absurd hsucc (Nat.ne_of_lt (Nat.lt_succ_self _))
  | found hstep =>
      constructor
      · exact nofun
      · rintro ⟨-, herror, -⟩
        exact nomatch hstep.symm.trans herror
  | ended hstep he =>
      constructor
      · exact nofun
      · rintro ⟨-, herror, hnot⟩
        obtain rfl := Except.error.inj (hstep.symm.trans herror)
        exact absurd (he.symm.trans hnot) (by decide)
  | failed hstep he =>
      constructor
      · intro heq
        obtain rfl := Except.error.inj heq
        exact ⟨rfl, hstep, Bool.not_eq_true _ ▸ he⟩
      · rintro ⟨-, herror, -⟩
        rw [Except.error.inj (hstep.symm.trans herror)]

/-- Behind an end no step is taken. -/
theorem Look.past_still (h : Look steps t r t') (hended : t.1.ended = true) : t'.2 = t.2 := by
  cases h with
  | held | past => rfl
  | found | ended | failed => exact nomatch hended

/-- Nothing is found only behind an end. -/
theorem Look.ended_of_false (h : Look steps t r t') (hr : r = .ok false) : t'.1.ended = true := by
  cases h with
  | past | ended => rfl
  | held | found | failed => exact nomatch hr

theorem Look.unchanged (h : Look steps t r t') {e : Failure} (hr : r = .error e) : t'.1 = t.1 := by
  cases h with
  | failed => rfl
  | held | past | found | ended => exact nomatch hr

end

/-! ## §3. What was given was returned, but for what is held. -/

/-- A look-ahead that has returned these elements. -/
structure Fits (steps : Nat → Except Failure α) (returned : List α) (t : Peek α × Nat) : Prop where
  given : returned ++ t.1.ahead.toList = produced steps t.2
  ended_iff : t.1.ended = true ↔ Ends steps t.2

section

variable {steps : Nat → Except Failure α} {returned : List α} {t t' : Peek α × Nat}
  {r : Except Failure Bool}

theorem fits_start (steps : Nat → Except Failure α) : Fits steps [] ({}, 0) where
  given := rfl
  ended_iff := by
    constructor
    · exact nofun
    · rintro ⟨k, e, hk, -⟩
      exact absurd hk (Nat.not_lt_zero k)

theorem Fits.not_ends {ahead : Option α} {n : Nat} (h : Fits steps returned (⟨ahead, false⟩, n)) :
    ¬ Ends steps n :=
  fun hends => absurd (h.ended_iff.mpr hends) Bool.false_ne_true

theorem Fits.look (h : Fits steps returned t) (hlook : Look steps t r t') :
    Fits steps returned t' := by
  cases hlook with
  | held => exact h
  | past => exact h
  | @found x n hstep =>
      have hopen := Feed.not_ends_succ h.not_ends (hstep ▸ rfl)
      refine ⟨?_, ⟨nofun, fun hends => absurd hends hopen⟩⟩
      have hgiven : returned ++ [] = produced steps n := h.given
      rw [List.append_nil] at hgiven
      rw [hgiven, Feed.produced_succ h.not_ends, hstep]
      rfl
  | @ended e n hstep he =>
      refine ⟨?_, ⟨fun _ => ⟨n, e, Nat.lt_succ_self n, hstep, he⟩, fun _ => rfl⟩⟩
      have hgiven : returned ++ [] = produced steps n := h.given
      rw [Feed.produced_succ h.not_ends, hstep, ← hgiven]
      exact (List.append_nil _).symm
  | @failed e n hstep he =>
      have hgoesOn : goesOn (steps n) = true := by
        rw [hstep]
        simpa [goesOn] using he
      have hopen := Feed.not_ends_succ h.not_ends hgoesOn
      refine ⟨?_, ⟨nofun, fun hends => absurd hends hopen⟩⟩
      have hgiven : returned ++ [] = produced steps n := h.given
      rw [Feed.produced_succ h.not_ends, hstep, ← hgiven]
      exact (List.append_nil _).symm

/-- The elements returned after a call. -/
def noted (returned : List α) : Except Failure (Answer α) → List α
  | .ok (.element x) => returned ++ [x]
  | _ => returned

/-- Handing out what is held changes nothing about what the source gave. -/
theorem Fits.emptied (h : Fits steps returned t) (r : Except Failure Bool)
    (hheld : ∀ e, r = .error e → t.1.ahead = none) :
    Fits steps (noted returned ((handed t r).map .element)) (Lookahead.emptied t) := by
  obtain ⟨⟨ahead, ended⟩, n⟩ := t
  refine ⟨?_, h.ended_iff⟩
  have hgiven : returned ++ ahead.toList = produced steps n := h.given
  match r, ahead with
  | .ok _, some x => exact (List.append_nil _).trans hgiven
  | .ok _, none => exact hgiven
  | .error e, ahead =>
      obtain rfl : ahead = none := hheld e rfl
      exact hgiven

end

/-! ## §4. Calls. -/

/-- What a call does after these elements were returned. -/
structure Delivers (steps : Nat → Except Failure α) (returned : List α) (call : Merge.Draw)
    (t : Peek α × Nat) (r : Except Failure (Answer α)) (t' : Peek α × Nat) : Prop where
  /-- What came before an end was returned, but for the element that is held. -/
  before : returned ++ t.1.ahead.toList = produced steps t.2
  after : noted returned r ++ t'.1.ahead.toList = produced steps t'.2
  one : t'.2 = t.2 ∨ t'.2 = t.2 + 1
  /-- Neither with an element held nor behind an end is the source called. -/
  held : t.1.ahead.isSome = true → t'.2 = t.2
  past : Ends steps t.2 → t'.2 = t.2
  /-- A failure is that of the step taken in the call, and costs nothing. -/
  raised_iff : ∀ e, e.isEnd = false →
    (r = .error e ↔ t'.2 = t.2 + 1 ∧ steps t.2 = .error e)
  lossless : ∀ e, e.isEnd = false → r = .error e → t'.1 = t.1
  /-- An end is signalled when all that comes before it was returned. -/
  complete : ∀ e, e.isEnd = true → r = .error e →
    call = .next ∧ e = .ended ∧ Ends steps t'.2 ∧ ∀ m, t'.2 ≤ m → produced steps m = returned
  told : call = .hasNext → ∀ a, r = .ok a →
    a = .truth t'.1.ahead.isSome ∧ (t'.1.ahead = none → Ends steps t'.2)
  handed : call = .next → ∀ a, r = .ok a → ∃ x, a = .element x ∧ t'.1.ahead = none

theorem map_eq_error_iff {β γ : Type} {f : β → γ} {r : Except Failure β} {e : Failure} :
    r.map f = .error e ↔ r = .error e := by
  cases r with
  | ok b => exact ⟨nofun, nofun⟩
  | error e' =>
      constructor
      · intro h
        rw [Except.error.inj h]
      · intro h
        rw [Except.error.inj h]
        rfl

/-- Only an end that was made sure of comes in addition to the failures of the look. -/
theorem handed_eq_error_iff {t : Peek α × Nat} {r : Except Failure Bool} {e : Failure} :
    handed t r = .error e ↔ r = .error e ∨ (e = .ended ∧ t.1.ahead = none ∧ ∃ b, r = .ok b) := by
  obtain ⟨⟨ahead, ended⟩, n⟩ := t
  match r, ahead with
  | .error e', _ => simp [handed]
  | .ok b, none => simp [handed, eq_comm]
  | .ok b, some x => simp [handed]

section

variable {steps : Nat → Except Failure α} {returned : List α} {t t' : Peek α × Nat}
  {r : Except Failure Bool}

theorem Fits.delivers_hasNext (h : Fits steps returned t) (hlook : Look steps t r t') :
    Delivers steps returned .hasNext t (r.map .truth) t' where
  before := h.given
  after := by
    have hgiven := (h.look hlook).given
    cases r <;> exact hgiven
  one := hlook.one
  held hheld := by rw [(hlook.still hheld).2]
  past hends := hlook.past_still (h.ended_iff.mpr hends)
  raised_iff := by
    intro e he
    rw [map_eq_error_iff, hlook.error_iff]
    exact and_congr_right fun _ => and_iff_left he
  lossless e _ hr := hlook.unchanged (map_eq_error_iff.mp hr)
  complete := by
    intro e he hr
    have hnot := ((hlook.error_iff e).mp (map_eq_error_iff.mp hr)).2.2
    exact absurd (he.symm.trans hnot) (by decide)
  told := by
    intro _ a hr
    cases r with
    | error e => exact nomatch hr
    | ok b =>
        obtain rfl := Except.ok.inj hr
        have htold := hlook.told rfl
        refine ⟨congrArg Answer.truth htold, ?_⟩
        intro hnone
        rw [hnone] at htold
        exact (h.look hlook).ended_iff.mp (hlook.ended_of_false (congrArg Except.ok htold))
  handed hcall := nomatch hcall

theorem Fits.delivers_next (h : Fits steps returned t) (hlook : Look steps t r t') :
    Delivers steps returned .next t ((handed t' r).map .element) (Lookahead.emptied t') := by
  have h' := h.look hlook
  have hheld : ∀ e, r = .error e → t'.1.ahead = none := by
    intro e hr
    cases hlook with
    | failed => rfl
    | held | past | found | ended => exact nomatch hr
  have hafter := h'.emptied r hheld
  refine {
    before := h.given
    after := hafter.given
    one := hlook.one
    held := ?_
    past := fun hends => hlook.past_still (h.ended_iff.mpr hends)
    raised_iff := ?_
    lossless := ?_
    complete := ?_
    told := fun hcall => nomatch hcall
    handed := ?_ }
  · intro hahead
    show t'.2 = t.2
    rw [(hlook.still hahead).2]
  · intro e he
    rw [map_eq_error_iff, handed_eq_error_iff, hlook.error_iff]
    constructor
    · rintro (⟨hone, hstep, -⟩ | ⟨rfl, -⟩)
      · exact ⟨hone, hstep⟩
      · exact nomatch he
    · rintro ⟨hone, hstep⟩
      exact .inl ⟨hone, hstep, he⟩
  · intro e he hr
    rcases handed_eq_error_iff.mp (map_eq_error_iff.mp hr) with hr | ⟨rfl, -⟩
    · have hnone : t'.1.ahead = none := hheld e hr
      rw [← hlook.unchanged hr]
      show { t'.1 with ahead := none } = t'.1
      rw [← hnone]
    · exact nomatch he
  · intro e he hr
    rcases handed_eq_error_iff.mp (map_eq_error_iff.mp hr) with hr | ⟨rfl, hnone, b, hr⟩
    · have hnot := ((hlook.error_iff e).mp hr).2.2
      exact absurd (he.symm.trans hnot) (by decide)
    · have hfalse : b = false := by
        rw [hlook.told hr, hnone]
        rfl
      have hends : Ends steps t'.2 := h'.ended_iff.mp (hlook.ended_of_false (hfalse ▸ hr))
      refine ⟨rfl, rfl, hends, ?_⟩
      intro m hm
      have hgiven := h'.given
      rw [hnone, Option.toList_none, List.append_nil] at hgiven
      rw [hgiven, Feed.produced_of_ends hends hm]
  · intro _ a hr
    obtain ⟨⟨ahead, ended⟩, n⟩ := t'
    match r, ahead with
    | .ok _, some x => exact ⟨x, (Except.ok.inj hr).symm, rfl⟩
    | .ok _, none => exact nomatch hr
    | .error _, _ => exact nomatch hr

/-- A call delivers, and leaves the look-ahead fitting. -/
theorem Fits.ask (h : Fits steps returned t) (call : Merge.Draw) :
    ∃ r t', call.ask (source steps) t = .of r t' ∧ Delivers steps returned call t r t'
      ∧ Fits steps (noted returned r) t' := by
  cases call with
  | hasNext =>
      obtain ⟨r, t', hask, hlook⟩ := hasNext_look steps t
      have hdelivers := h.delivers_hasNext hlook
      exact ⟨_, t', Act.map_of Answer.truth hask, hdelivers, hdelivers.after,
        (h.look hlook).ended_iff⟩
  | next =>
      obtain ⟨r, t', hask, hlook⟩ := next_look steps t
      have hdelivers := h.delivers_next hlook
      exact ⟨_, Lookahead.emptied t', Act.map_of Answer.element hask, hdelivers, hdelivers.after,
        (h.look hlook).ended_iff⟩

end

/-- **Whatever a plain source does, a look-ahead over it returns what the source gave before its
first end, in order and each element once: at every moment all of it but for one element at most,
which is held, and during which the source is left alone.  A failure is raised by the call that met
it, and costs nothing; behind its first end the source is never called again.** -/
theorem delivers_produced (steps : Nat → Except Failure α) (calls : List Merge.Draw) :
    Throughout (Merge.Draw.ask (source steps)) (fun returned _ _ r _ => noted returned r)
      (Delivers steps) calls [] ({}, 0) := by
  apply throughout_of_invariant (fun _ returned t => Fits steps returned t) ?_ (fits_start steps)
  intro k returned t call _ h
  exact h.ask call

/-- A source that fails, gives an element, ends, and would then go on. -/
example : (source fun
        | 0 => .error (.raised "ValueError" none)
        | 1 => .ok 7
        | 2 => .error .ended
        | _ => .ok 8).answers [.hasNext, .hasNext, .next, .next, .hasNext, .next] ({}, 0)
    = some [.error (.raised "ValueError" none), .ok (.truth true), .ok (.element 7), .error .ended,
      .ok (.truth false), .error .ended] := by
  decide

end Lookahead

end Cursors
