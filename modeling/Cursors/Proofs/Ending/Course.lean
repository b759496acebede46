/-
  Cursors.Proofs.Ending.Course
  ────────────────────────────
  **HOW A SOURCE COMES TO ITS END.**

  An end is a failure like others, and the functions that a user hands in
  may fail with one as well.  A course says, of the states of a source, what
  there is to tell about this:

      Ready    the next element is at hand
      Spent    nothing is left, and nothing will come
      Raised   a function of the user failed so between two states

  A source keeps to its course (`Course.Sound`) if it signals an end only
  where it is spent or where a function of the user did so in that very
  call.  Two kinds of sources have no functions: those that deliver a list,
  and plain ones that are read step by step.
-/
import Cursors.Proofs.After
import Cursors.Proofs.Leaf

namespace Cursors

variable {σ τ α : Type}

/-! ## §1. Courses. -/

/-- What there is to tell about the states of a source. -/
structure Course (τ : Type) where
  /-- The source can be in this state. -/
  Fit : τ → Prop
  /-- The next element is at hand. -/
  Ready : τ → Prop
  /-- Nothing is left. -/
  Spent : τ → Prop
  /-- The second state has come after the first. -/
  Later : τ → τ → Prop
  /-- Between the two states a function of the user failed, and this is what was made of it. -/
  Raised : τ → τ → Failure → Prop
  not_spent : ∀ {t}, Ready t → ¬ Spent t
  later_refl : ∀ t, Later t t
  later_trans : ∀ {a b c}, Later a b → Later b c → Later a c
  raised_mono : ∀ {a b c d e}, Later a b → Raised b c e → Later c d → Raised a d e

namespace Course

/-- What holds after a source was asked whether it has more. -/
structure Asked (c : Course τ) (t : τ) (r : Except Failure Bool) (t' : τ) : Prop where
  fit : c.Fit t'
  later : c.Later t t'
  of_ready : c.Ready t → r = .ok true
  of_spent : c.Spent t → r = .ok false
  ready : r = .ok true → c.Ready t'
  spent : r = .ok false → c.Spent t'
  raised : ∀ e, r = .error e → e.isEnd = true → c.Raised t t' e

/-- What holds after a source was asked for its next element. -/
structure Stepped (c : Course τ) (t : τ) (r : Except Failure α) (t' : τ) : Prop where
  fit : c.Fit t'
  later : c.Later t t'
  of_spent : c.Spent t → r = .error .ended ∧ c.Spent t'
  ended : ∀ e, r = .error e → e.isEnd = true →
    c.Raised t t' e ∨ (e = .ended ∧ c.Spent t' ∧ ¬ c.Ready t)

/-- The source keeps to the course. -/
structure Sound (c : Course τ) (source : Forward τ α) : Prop where
  hasNext : ∀ t, c.Fit t → source.hasNext.After t (c.Asked t)
  next : ∀ t, c.Fit t → source.next.After t (c.Stepped t)

variable {c : Course τ} {t t' : τ}

/-- From a state with an element at hand, a source signals an end only on behalf of a function. -/
theorem Stepped.raised_of_ready {r : Except Failure α} (h : c.Stepped t r t') (hready : c.Ready t)
    {e : Failure} (hr : r = .error e) (he : e.isEnd = true) : c.Raised t t' e := by
  obtain hraised | ⟨-, -, hnot⟩ := h.ended e hr he
  · exact hraised
  · exact absurd hready hnot

/-- An answer that is at hand costs nothing. -/
theorem asked_true (hfit : c.Fit t) (hready : c.Ready t) : c.Asked t (.ok true) t where
  fit := hfit
  later := c.later_refl t
  of_ready _ := rfl
  of_spent hspent := absurd hspent (c.not_spent hready)
  ready _ := hready
  spent h := nomatch h
  raised _ h := nomatch h

/-- What was made sure of by asking holds of the answer. -/
theorem asked_ok {b : Bool} (hfit : c.Fit t') (hlater : c.Later t t')
    (htrue : b = true → c.Ready t' ∧ ¬ c.Spent t) (hfalse : b = false → c.Spent t' ∧ ¬ c.Ready t) :
    c.Asked t (.ok b) t' := by
  cases b with
  | true =>
      obtain ⟨hready, hnot⟩ := htrue rfl
      exact ⟨hfit, hlater, fun _ => rfl, fun h => absurd h hnot, fun _ => hready,
        nofun, nofun⟩
  | false =>
      obtain ⟨hspent, hnot⟩ := hfalse rfl
      exact ⟨hfit, hlater, fun h => absurd h hnot, fun _ => rfl, nofun,
        fun _ => hspent, nofun⟩

theorem asked_error {e : Failure} (hfit : c.Fit t') (hlater : c.Later t t') (hready : ¬ c.Ready t)
    (hspent : ¬ c.Spent t) (hraised : e.isEnd = true → c.Raised t t' e) :
    c.Asked t (.error e) t' where
  fit := hfit
  later := hlater
  of_ready h := absurd h hready
  of_spent h := absurd h hspent
  ready h := nomatch h
  spent h := nomatch h
  raised e' he' := by
    obtain rfl := Except.error.inj he'
    exact hraised

theorem stepped_ok {x : α} (hfit : c.Fit t') (hlater : c.Later t t') (hspent : ¬ c.Spent t) :
    c.Stepped t (.ok x) t' where
  fit := hfit
  later := hlater
  of_spent h := absurd h hspent
  ended _ h := nomatch h

/-- An end that the source signals of itself. -/
theorem stepped_ended (hfit : c.Fit t') (hlater : c.Later t t') (hspent : c.Spent t')
    (hready : ¬ c.Ready t) : c.Stepped t (.error .ended : Except Failure α) t' where
  fit := hfit
  later := hlater
  of_spent _ := ⟨rfl, hspent⟩
  ended _ h _ := .inr ⟨(Except.error.inj h).symm, hspent, hready⟩

/-- Any other failure. -/
theorem stepped_error {e : Failure} (hfit : c.Fit t') (hlater : c.Later t t')
    (hspent : ¬ c.Spent t) (hraised : e.isEnd = true → c.Raised t t' e) :
    c.Stepped t (.error e : Except Failure α) t' where
  fit := hfit
  later := hlater
  of_spent h := absurd h hspent
  ended e' h he := by
    obtain rfl := Except.error.inj h
    exact .inl (hraised he)

/-- Nothing that was asked of it made the source spent. -/
theorem Asked.not_spent {b : Except Failure Bool} (h : c.Asked t b t') (hb : b ≠ .ok false) :
    ¬ c.Spent t :=
  fun hspent => hb (h.of_spent hspent)

theorem Asked.not_ready {b : Except Failure Bool} (h : c.Asked t b t') (hb : b ≠ .ok true) :
    ¬ c.Ready t :=
  fun hready => hb (h.of_ready hready)

end Course

/-! ## §2. Sources that deliver a list. -/

/-- A source that delivers a list, and a state in which it has delivered none of it. -/
structure Supply (τ α : Type) where
  source : Forward τ α
  Has : τ → List α → Prop
  gives : Gives source Has
  start : τ
  items : List α
  holds : Has start items

namespace Supply

variable (supply : Supply τ α)

/-- What a source has left is all or nothing of the same list. -/
theorem not_has_nil {t : τ} {x : α} {xs : List α} (h : supply.Has t (x :: xs)) :
    ¬ supply.Has t [] := by
  intro hnil
  obtain ⟨_, hmore, -⟩ := supply.gives.hasNext_apply h
  obtain ⟨_, hnone, -⟩ := supply.gives.hasNext_apply hnil
  rw [hmore] at hnone
  injection hnone with hb
  contradiction

/-- A source that delivers a list is spent when nothing of it is left. -/
def course : Course τ where
  Fit t := ∃ xs, supply.Has t xs
  Ready t := ∃ x xs, supply.Has t (x :: xs)
  Spent t := supply.Has t []
  Later _ _ := True
  Raised _ _ _ := False
  not_spent := by
    intro t hready
    obtain ⟨x, xs, h⟩ := hready
    exact supply.not_has_nil h
  later_refl _ := trivial
  later_trans _ _ := trivial
  raised_mono _ h _ := h

theorem sound : supply.course.Sound supply.source where
  hasNext := by
    intro t hfit
    obtain ⟨xs, h⟩ := hfit
    obtain ⟨t', hask, h'⟩ := supply.gives.hasNext_apply h
    apply Act.after_of_value hask
    show supply.course.Asked t (.ok (!xs.isEmpty)) t'
    refine Course.asked_ok (c := supply.course) ⟨xs, h'⟩ trivial ?_ ?_
    · intro hmore
      cases xs with
      | nil => contradiction
      | cons x xs => exact ⟨⟨x, xs, h'⟩, supply.not_has_nil h⟩
    · intro hnone
      cases xs with
      | nil =>
          refine ⟨h', ?_⟩
          intro hready
          exact supply.course.not_spent hready h
      | cons x xs => contradiction
  next := by
    intro t hfit
    obtain ⟨xs, h⟩ := hfit
    cases xs with
    | nil =>
        obtain ⟨t', hnext, h'⟩ := supply.gives.next_of_nil h
        apply Act.after_of_failure hnext
        exact Course.stepped_ended ⟨[], h'⟩ trivial h' fun hready =>
          supply.course.not_spent hready h
    | cons x xs =>
        obtain ⟨t', hnext, h'⟩ := supply.gives.next_of_cons h
        apply Act.after_of_value hnext
        exact Course.stepped_ok ⟨xs, h'⟩ trivial (supply.not_has_nil h)

/-- The two halves of a pair. -/
def halves (τ υ : Type) : Pair (τ × υ) τ υ where
  first := .left
  second := .right
  Holds s t u := s = (t, u)
  first_get := by
    rintro s t u rfl
    rfl
  second_get := by
    rintro s t u rfl
    rfl
  first_set := by
    rintro s t u rfl t'
    rfl
  second_set := by
    rintro s t u rfl u'
    rfl

/-- A cursor at the front of a list. -/
def cursor (xs : List α) : Supply (Cursor × List α) α where
  source := (Cursor.twoWay .left (.ofList .right)).toForward
  Has := (halves Cursor (List α)).Has Cursor.Rest
  gives := Pair.gives_cursor (halves Cursor (List α))
  start := ({ position := .plain 0 }, xs)
  items := xs
  holds := ⟨_, _, rfl, Cursor.rest_ofList (Nat.zero_le xs.length)⟩

end Supply

/-! ## §3. Plain sources. -/

namespace Feed

variable (steps : Nat → Except Failure α)

/-- A look-ahead over the steps of a plain source, and the number of steps taken. -/
def source : Forward (Peek α × Nat) α := Peek.forward "IteratorWrapper" .left (pull steps .right)

/-- One of the first `n` steps is an end. -/
def Ends (n : Nat) : Prop := ∃ k e, k < n ∧ steps k = .error e ∧ e.isEnd = true

/-- A plain source is spent when it has met an end and holds nothing. -/
def course : Course (Peek α × Nat) where
  Fit t := t.1.ended = true → Ends steps t.2
  Ready t := t.1.ahead.isSome = true
  Spent t := t.1.ahead = none ∧ t.1.ended = true ∧ Ends steps t.2
  Later _ _ := True
  Raised _ _ _ := False
  not_spent := by
    intro t hready hspent
    rw [hspent.1] at hready
    contradiction
  later_refl _ := trivial
  later_trans _ _ := trivial
  raised_mono _ h _ := h

variable {steps}

theorem Ends.mono {m n : Nat} (h : Ends steps m) (hle : m ≤ n) : Ends steps n := by
  obtain ⟨k, e, hk, hstep, he⟩ := h
  exact ⟨k, e, Nat.lt_of_lt_of_le hk hle, hstep, he⟩

theorem asked (t : Peek α × Nat) (hfit : (course steps).Fit t) :
    (source steps).hasNext.After t ((course steps).Asked t) := by
  obtain ⟨p, n⟩ := t
  cases hahead : p.ahead with
  | some x =>
      have hready : (course steps).Ready (p, n) := by
        show p.ahead.isSome = true
        rw [hahead]
        rfl
      exact Act.after_of_value (Peek.hasNext_of_held hahead) (Course.asked_true hfit hready)
  | none =>
      have hnot : ¬ (course steps).Ready (p, n) := by
        show ¬ p.ahead.isSome = true
        rw [hahead]
        exact Bool.false_ne_true
      cases hended : p.ended with
      | true =>
          apply Act.after_of_value (Peek.hasNext_of_ended hahead hended)
          exact Course.asked_ok hfit trivial nofun
            fun _ => ⟨⟨hahead, hended, hfit hended⟩, hnot⟩
      | false =>
          have hpull : pull steps .right (p, n) = .of (steps n) (p, n + 1) := pull_apply (p, n)
          have hopen : ¬ (course steps).Spent (p, n) := by
            intro hspent
            have h : p.ended = true := hspent.2.1
            exact absurd (hended.symm.trans h) Bool.false_ne_true
          cases hstep : steps n with
          | ok x =>
              rw [hstep] at hpull
              apply Act.after_of_value (Peek.hasNext_of_value hahead hended hpull)
              show (course steps).Asked (p, n) (.ok true) ({ p with ahead := some x }, n + 1)
              apply Course.asked_ok _ trivial
              · exact fun _ => ⟨rfl, hopen⟩
              · exact nofun
              · exact fun h => absurd (hended.symm.trans h) Bool.false_ne_true
          | error e =>
              rw [hstep] at hpull
              by_cases he : e.isEnd = true
              · have hends : Ends steps (n + 1) := ⟨n, e, Nat.lt_succ_self n, hstep, he⟩
                apply Act.after_of_value (Peek.hasNext_of_end hahead hended hpull he)
                show (course steps).Asked (p, n) (.ok false) ({ p with ended := true }, n + 1)
                apply Course.asked_ok (fun _ => hends) trivial
                · exact nofun
                · exact fun _ => ⟨⟨hahead, rfl, hends⟩, hnot⟩
              · apply Act.after_of_failure (Peek.hasNext_of_failure hahead hended hpull he)
                exact Course.asked_error (fun h => (hfit h).mono (Nat.le_succ n)) trivial hnot hopen
                  fun h => absurd h he

theorem sound : (course steps).Sound (source steps) where
  hasNext := asked
  next := by
    intro t hfit
    show (Peek.next .left (pull steps .right)).After t _
    unfold Peek.next
    refine (asked t hfit).bind ?_ ?_
    · intro b t' hb
      cases b with
      | true =>
          have hready : t'.1.ahead.isSome = true := hb.ready rfl
          obtain ⟨x, hx⟩ := Option.isSome_iff_exists.mp hready
          apply Act.after_read
          rw [Field.left, hx]
          apply Act.after_modify
          apply Act.after_pure
          exact Course.stepped_ok hb.fit trivial (hb.not_spent (by simp))
      | false =>
          exact Act.after_fail
            (Course.stepped_ended hb.fit hb.later (hb.spent rfl) (hb.not_ready (by simp)))
    · intro e t' he
      exact Course.stepped_error he.fit he.later (he.not_spent (by simp)) (he.raised e rfl)

end Feed

end Cursors
