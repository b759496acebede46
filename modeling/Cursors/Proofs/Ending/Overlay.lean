/-
  Cursors.Proofs.Ending.Overlay
  ─────────────────────────────
  **THE END OF WHAT LIES OVER ONE SOURCE.**

  A filter, a transformation and a buffer have one source each, and are
  spent when they hold nothing and their source is spent:

      filter          holds the match found ahead
      transformation  holds nothing
      buffer          holds the kept elements after the gap

  What their source signals early was signalled by a function below it, and
  what their own function fails with is passed on as its guard reports it.
-/
import Cursors.Combinator.Buffer
import Cursors.Combinator.Filter
import Cursors.Combinator.Transform
import Cursors.Proofs.Ending.Node

namespace Cursors

variable {τ α β : Type}

/-! ## §1. Filters. -/

namespace Filter

/-- A filter is spent when it holds no match and its source is spent. -/
def knot (c : Course τ) (mode : Mode) (cb : Callback α Bool) :
    Knot (Filter α) fun _ : Unit => τ where
  courses _ := c
  Raises := cb.Raises mode
  Fit _ := True
  Ready n := n.self.ahead.isSome = true
  Spent n := n.self.ahead = none ∧ c.Spent (n.below ())
  not_spent := by
    intro n hready hspent
    rw [hspent.1] at hready
    exact absurd hready Bool.false_ne_true

/-- A filter over a source. -/
def upon (source : Forward τ α) (mode : Mode) (cb : Callback α Bool) (fuel : Nat) :
    Forward (Node (Filter α) fun _ : Unit => τ) α :=
  forward fuel Node.own (source.within (Node.child ())) (cb.ask mode)

section

variable {c : Course τ} {mode : Mode} {cb : Callback α Bool} {source : Forward τ α}
  {n : Node (Filter α) fun _ : Unit => τ}

/-- What holds after the next match was searched for. -/
structure Searched (c : Course τ) (mode : Mode) (cb : Callback α Bool)
    (n : Node (Filter α) fun _ : Unit => τ) (r : Except Failure (Option α))
    (n' : Node (Filter α) fun _ : Unit => τ) : Prop where
  moved : (knot c mode cb).Moved n r n'
  self_eq : n'.self = n.self
  of_spent : c.Spent (n.below ()) → r = .ok none
  spent : r = .ok none → c.Spent (n'.below ())

theorem searched (hsound : c.Sound source) (fuel : Nat) (hfits : (knot c mode cb).Fits n) :
    (search (source.within (Node.child ())).hasNext (source.within (Node.child ())).next
      (cb.ask mode) fuel).After n (Searched c mode cb n) := by
  have hsounds : (knot c mode cb).Sound fun _ => source := fun _ => hsound
  induction fuel generalizing n with
  | zero => exact Act.after_of_unfinished rfl
  | succ fuel ih =>
      refine (Knot.after_ask hsounds hfits ()).bind ?_ ?_
      · rintro more n₁ ⟨hmoved, t, rfl, hask⟩
        cases more with
        | false =>
            exact Act.after_pure
              ⟨hmoved.answer _, rfl, fun _ => rfl,
                fun _ => hask.spent rfl⟩
        | true =>
            -- From here on the source was not spent at the start.
            have hopen := hask.not_spent (by simp)
            refine (Knot.after_step_ready hsounds hmoved.fits (i := ()) (hask.ready rfl)).bind ?_ ?_
            · rintro x n₂ ⟨hstepped, u, rfl, -⟩
              have hmoved := hmoved.trans hstepped
              refine (Callback.after_ask rfl hmoved.fits x).bind ?_ ?_
              · rintro accepted n₃ ⟨hcalled, rfl⟩
                have hmoved := hmoved.trans hcalled
                cases accepted with
                | true =>
                    exact Act.after_pure ⟨hmoved.answer _, rfl,
                      fun h => absurd h hopen, nofun⟩
                | false =>
                    refine (ih hmoved.fits).mono ?_
                    intro r n' hrest
                    exact ⟨hmoved.trans hrest.moved, hrest.self_eq, fun h => absurd h hopen,
                      hrest.spent⟩
              · rintro e n₃ ⟨hcalled, rfl⟩
                exact ⟨(hmoved.trans hcalled).error, rfl, fun h => absurd h hopen, nofun⟩
            · rintro e n₂ ⟨hstepped, u, rfl, -⟩
              exact ⟨(hmoved.trans hstepped).error, rfl, fun h => absurd h hopen, nofun⟩
      · rintro e n₁ ⟨hmoved, t, rfl, hask⟩
        exact ⟨hmoved.error, rfl, fun h => absurd h (hask.not_spent (by simp)), nofun⟩

theorem Searched.not_spent {r : Except Failure (Option α)}
    {n' : Node (Filter α) fun _ : Unit => τ} (h : Searched c mode cb n r n') (hr : r ≠ .ok none) :
    ¬ (knot c mode cb).Spent n :=
  fun hspent => hr (h.of_spent hspent.2)

/-- A filter that holds no match and finds none is spent. -/
theorem Searched.spent_of_none {n' : Node (Filter α) fun _ : Unit => τ}
    (h : Searched c mode cb n (.ok none) n') (hahead : n.self.ahead = none) :
    (knot c mode cb).Spent n' :=
  ⟨by rw [h.self_eq, hahead], h.spent rfl⟩

theorem not_ready (hahead : n.self.ahead = none) : ¬ (knot c mode cb).Ready n := by
  show ¬ n.self.ahead.isSome = true
  rw [hahead]
  exact Bool.false_ne_true

theorem asked (hsound : c.Sound source) (fuel : Nat) (hfit : (knot c mode cb).course.Fit n) :
    (upon source mode cb fuel).hasNext.After n ((knot c mode cb).course.Asked n) := by
  show (hasNext fuel Node.own (source.within (Node.child ())) (cb.ask mode)).After n _
  unfold hasNext
  apply Act.after_read
  cases hahead : n.self.ahead with
  | some x =>
      have hready : n.self.ahead.isSome = true := by
        rw [hahead]
        rfl
      rw [show (Node.own.get n).ahead = some x from hahead]
      exact Act.after_pure (Course.asked_true hfit hready)
  | none =>
      have hnot : ¬ (knot c mode cb).Ready n := not_ready hahead
      rw [show (Node.own.get n).ahead = none from hahead]
      refine (searched hsound fuel hfit.1).bind ?_ ?_
      · intro found n' h
        cases found with
        | some x =>
            apply Act.after_write
            exact Act.after_pure (Course.asked_ok ⟨h.moved.fits, trivial⟩ h.moved.later
              (fun _ => ⟨rfl, h.not_spent (by simp)⟩) nofun)
        | none =>
            exact Act.after_pure (Course.asked_ok ⟨h.moved.fits, trivial⟩ h.moved.later nofun
              fun _ => ⟨h.spent_of_none hahead, hnot⟩)
      · intro e n' h
        exact Course.asked_error ⟨h.moved.fits, trivial⟩ h.moved.later hnot
          (h.not_spent (by simp)) (h.moved.raised e rfl)

theorem stepped (hsound : c.Sound source) (fuel : Nat) (hfit : (knot c mode cb).course.Fit n) :
    (upon source mode cb fuel).next.After n ((knot c mode cb).course.Stepped n) := by
  show (next fuel Node.own (source.within (Node.child ())) (cb.ask mode)).After n _
  unfold next
  apply Act.after_read
  cases hahead : n.self.ahead with
  | some x =>
      have hopen : ¬ (knot c mode cb).Spent n := fun hspent => by
        rw [hspent.1] at hahead
        exact nomatch hahead
      rw [show (Node.own.get n).ahead = some x from hahead]
      apply Act.after_write
      exact Act.after_pure
        (Course.stepped_ok ⟨hfit.1, trivial⟩ ((knot c mode cb).course.later_refl n) hopen)
  | none =>
      have hnot : ¬ (knot c mode cb).Ready n := not_ready hahead
      rw [show (Node.own.get n).ahead = none from hahead]
      refine (searched hsound fuel hfit.1).bind ?_ ?_
      · intro found n' h
        cases found with
        | some x =>
            apply Act.after_write
            exact Act.after_pure (Course.stepped_ok ⟨h.moved.fits, trivial⟩ h.moved.later
              (h.not_spent (by simp)))
        | none =>
            exact Act.after_fail (Course.stepped_ended ⟨h.moved.fits, trivial⟩ h.moved.later
              (h.spent_of_none hahead) hnot)
      · intro e n' h
        exact Course.stepped_error ⟨h.moved.fits, trivial⟩ h.moved.later (h.not_spent (by simp))
          (h.moved.raised e rfl)

theorem sound (hsound : c.Sound source) (mode : Mode) (cb : Callback α Bool) (fuel : Nat) :
    (knot c mode cb).course.Sound (upon source mode cb fuel) where
  hasNext _ := asked hsound fuel
  next _ := stepped hsound fuel

end

end Filter

/-! ## §2. Transformations. -/

namespace Transform

/-- A transformation is spent when its source is. -/
def knot (c : Course τ) (mode : Mode) (cb : Callback α β) : Knot Unit fun _ : Unit => τ where
  courses _ := c
  Raises := cb.Raises mode
  Fit _ := True
  Ready n := c.Ready (n.below ())
  Spent n := c.Spent (n.below ())
  not_spent := c.not_spent

/-- A transformation of a source. -/
def upon (source : Forward τ α) (mode : Mode) (cb : Callback α β) :
    Forward (Node Unit fun _ : Unit => τ) β :=
  (source.within (Node.child ())).transform (cb.ask mode)

variable {c : Course τ} {source : Forward τ α}

theorem sound (hsound : c.Sound source) (mode : Mode) (cb : Callback α β) :
    (knot c mode cb).course.Sound (upon source mode cb) where
  hasNext := by
    intro n hfit
    have hsounds : (knot c mode cb).Sound fun _ => source := fun _ => hsound
    refine (Knot.after_ask hsounds hfit.1 ()).mono ?_
    rintro r n' ⟨hmoved, t, rfl, hask⟩
    exact ⟨⟨hmoved.fits, trivial⟩, hmoved.later, hask.of_ready, hask.of_spent, hask.ready,
      hask.spent, hmoved.raised⟩
  next := by
    intro n hfit
    have hsounds : (knot c mode cb).Sound fun _ => source := fun _ => hsound
    refine (Knot.after_step hsounds hfit.1 ()).bind ?_ ?_
    · rintro x n₁ ⟨t, rfl, hstep⟩
      have hopen : ¬ c.Spent (n.below ()) := fun hspent => nomatch (hstep.of_spent hspent).1
      have hmoved : (knot c mode cb).Moved n (.ok x) ((Node.child ()).set t n) :=
        ⟨Knot.fits_put hfit.1 hstep.fit, Knot.later_put hstep.later, nofun⟩
      refine (Callback.after_ask rfl hmoved.fits x).mono ?_
      rintro r n₂ ⟨hcalled, rfl⟩
      have hmoved := hmoved.trans hcalled
      exact ⟨⟨hmoved.fits, trivial⟩, hmoved.later, fun hspent => absurd hspent hopen,
        fun e hr he => .inl (hmoved.raised e hr he)⟩
    · rintro e n₁ ⟨t, rfl, hstep⟩
      refine ⟨⟨Knot.fits_put hfit.1 hstep.fit, trivial⟩, Knot.later_put hstep.later, ?_, ?_⟩
      · intro hspent
        obtain ⟨he, ht⟩ := hstep.of_spent hspent
        exact ⟨congrArg Except.error (Except.error.inj he), ht⟩
      · intro e' hr he
        obtain rfl := Except.error.inj hr
        obtain hraised | hended := hstep.ended e rfl he
        · exact .inl (Knot.raised_put hraised)
        · exact .inr hended

end Transform

/-! ## §3. Buffers. -/

namespace Buffer

/-- A buffer is spent when nothing that it keeps lies after the gap and its source is spent. -/
def knot (α : Type) (c : Course τ) : Knot (Buffer α) fun _ : Unit => τ where
  courses _ := c
  Raises _ _ := False
  Fit _ := True
  Ready n := n.self.position < n.self.kept.length ∨ c.Ready (n.below ())
  Spent n := n.self.kept.length ≤ n.self.position ∧ c.Spent (n.below ())
  not_spent := by
    intro n hready hspent
    obtain hkept | hbelow := hready
    · exact absurd hspent.1 (Nat.not_le.mpr hkept)
    · exact c.not_spent hbelow hspent.2

/-- A buffer over a source. -/
def upon (source : Forward τ α) (strict : Bool) : Forward (Node (Buffer α) fun _ : Unit => τ) α :=
  (twoWay (pure strict) Node.own (source.within (Node.child ()))).toForward

section

variable {c : Course τ} {source : Forward τ α} {n : Node (Buffer α) fun _ : Unit => τ}

theorem asked (hsound : c.Sound source) (strict : Bool) (hfit : (knot α c).course.Fit n) :
    (upon source strict).hasNext.After n ((knot α c).course.Asked n) := by
  have hsounds : (knot α c).Sound fun _ => source := fun _ => hsound
  show (hasNext Node.own (source.within (Node.child ()))).After n _
  unfold hasNext
  apply Act.after_read
  by_cases hkept : n.self.position < n.self.kept.length
  · rw [if_pos (show (Node.own.get n).position < (Node.own.get n).kept.length from hkept)]
    exact Act.after_pure (Course.asked_true hfit (.inl hkept))
  · rw [if_neg (show ¬ (Node.own.get n).position < (Node.own.get n).kept.length from hkept)]
    refine (Knot.after_ask hsounds hfit.1 ()).mono ?_
    rintro r n' ⟨hmoved, t, rfl, hask⟩
    refine ⟨⟨hmoved.fits, trivial⟩, hmoved.later, ?_, ?_, ?_, ?_, hmoved.raised⟩
    · intro hready
      exact hask.of_ready (hready.resolve_left hkept)
    · exact fun hspent => hask.of_spent hspent.2
    · exact fun hr => .inr (hask.ready hr)
    · exact fun hr => ⟨Nat.not_lt.mp hkept, hask.spent hr⟩

theorem stepped (hsound : c.Sound source) (strict : Bool) (hfit : (knot α c).course.Fit n) :
    (upon source strict).next.After n ((knot α c).course.Stepped n) := by
  have hsounds : (knot α c).Sound fun _ => source := fun _ => hsound
  show (next Node.own (source.within (Node.child ()))).After n _
  unfold next
  apply Act.after_read
  by_cases hkept : n.self.position < n.self.kept.length
  · rw [show (Node.own.get n).kept[(Node.own.get n).position]? = some n.self.kept[n.self.position]
      from List.getElem?_eq_getElem hkept]
    have hopen : ¬ (knot α c).Spent n := (knot α c).not_spent (.inl hkept)
    apply Act.after_modify
    exact Act.after_pure
      (Course.stepped_ok ⟨hfit.1, trivial⟩ ((knot α c).course.later_refl n) hopen)
  · have hle : n.self.kept.length ≤ n.self.position := Nat.not_lt.mp hkept
    rw [show (Node.own.get n).kept[(Node.own.get n).position]? = none
      from List.getElem?_eq_none hle]
    refine (Knot.after_step hsounds hfit.1 ()).bind ?_ ?_
    · rintro x n₁ ⟨t, rfl, hstep⟩
      have hopen : ¬ (knot α c).Spent n := fun hspent => nomatch (hstep.of_spent hspent.2).1
      apply Act.after_modify
      apply Act.after_modify
      exact Act.after_pure (Course.stepped_ok ⟨Knot.fits_put hfit.1 hstep.fit, trivial⟩
        (Knot.later_put hstep.later) hopen)
    · rintro e n₁ ⟨t, rfl, hstep⟩
      refine ⟨⟨Knot.fits_put hfit.1 hstep.fit, trivial⟩, Knot.later_put hstep.later, ?_, ?_⟩
      · intro hspent
        obtain ⟨he, ht⟩ := hstep.of_spent hspent.2
        exact ⟨congrArg Except.error (Except.error.inj he), hle, ht⟩
      · intro e' hr he
        obtain rfl := Except.error.inj hr
        obtain hraised | ⟨hended, ht, hnot⟩ := hstep.ended e rfl he
        · exact .inl (Knot.raised_put hraised)
        · exact .inr ⟨hended, ⟨hle, ht⟩, fun hready => hnot (hready.resolve_left hkept)⟩

theorem sound (hsound : c.Sound source) (strict : Bool) :
    (knot α c).course.Sound (upon source strict) where
  hasNext _ := asked hsound strict
  next _ := stepped hsound strict

end

end Buffer

end Cursors
