/-
  Cursors.Proofs.Ending.Node
  ──────────────────────────
  **A COMBINATOR OVER SOURCES OF ITS OWN.**

  The state of a combinator is a node: what it keeps for itself, the number
  of times that it called the function of the user, and the states of its
  sources.  A knot says what is particular to a combinator, and the course
  of a node follows from it:

      Later    no call is taken back, and each source has moved on
      Raised   one of the calls in between, or a source, failed so

  A callback may behave differently each time it is called, and is guarded.
-/
import Mathlib.Logic.Function.Basic
import Cursors.Proofs.Ending.Course
import Cursors.Proofs.Guard

namespace Cursors

variable {ρ ι α β : Type} {τ : ι → Type}

/-! ## §1. Nodes. -/

/-- The state of a combinator over sources named by `ι`. -/
structure Node (ρ : Type) {ι : Type} (τ : ι → Type) where
  self : ρ
  calls : Nat := 0
  below : (i : ι) → τ i

namespace Node

/-- What the combinator keeps for itself. -/
def own : Field (Node ρ τ) ρ where
  get := Node.self
  set r n := { n with self := r }

/-- The number of calls of the user's function. -/
def count : Field (Node ρ τ) Nat where
  get := Node.calls
  set k n := { n with calls := k }

/-- The state of one source. -/
def child [DecidableEq ι] (i : ι) : Field (Node ρ τ) (τ i) where
  get n := n.below i
  set t n := { n with below := Function.update n.below i t }

theorem below_child_set_self [DecidableEq ι] (n : Node ρ τ) (i : ι) (t : τ i) :
    ((child i).set t n).below i = t :=
  Function.update_self i t n.below

theorem below_child_set_of_ne [DecidableEq ι] (n : Node ρ τ) {i j : ι} (t : τ i) (h : j ≠ i) :
    ((child i).set t n).below j = n.below j :=
  Function.update_of_ne h t n.below

theorem child_set_get [DecidableEq ι] (n : Node ρ τ) (i : ι) :
    (child i).set ((child i).get n) n = n := by
  show Node.mk n.self n.calls (Function.update n.below i (n.below i)) = n
  rw [Function.update_eq_self]

/-- The `k`-th call of a function that counts its calls is made. -/
theorem after_pull (steps : Nat → Except Failure α) (n : Node ρ τ) :
    (Feed.pull steps count).After n fun r n' =>
      r = steps n.calls ∧ n' = { n with calls := n.calls + 1 } := by
  have hpull : Feed.pull steps count n = .of (steps n.calls) { n with calls := n.calls + 1 } :=
    Feed.pull_apply n
  exact Act.after_of_outcome hpull ⟨rfl, rfl⟩

end Node

/-! ## §2. Knots. -/

/-- What is particular to a combinator. -/
structure Knot (ρ : Type) {ι : Type} (τ : ι → Type) where
  /-- The courses of the sources. -/
  courses : (i : ι) → Course (τ i)
  /-- What may come of the `k`-th call of the user's function, if it fails, whatever it is called
  with: a node counts the calls, and does not keep their arguments. -/
  Raises : Nat → Failure → Prop
  Fit : Node ρ τ → Prop
  Ready : Node ρ τ → Prop
  Spent : Node ρ τ → Prop
  not_spent : ∀ {n}, Ready n → ¬ Spent n

namespace Knot

/-- All sources are in states in which they can be. -/
def Fits (knot : Knot ρ τ) (n : Node ρ τ) : Prop := ∀ i, (knot.courses i).Fit (n.below i)

/-- The course of a combinator. -/
def course (knot : Knot ρ τ) : Course (Node ρ τ) where
  Fit n := knot.Fits n ∧ knot.Fit n
  Ready := knot.Ready
  Spent := knot.Spent
  Later n n' := n.calls ≤ n'.calls ∧ ∀ i, (knot.courses i).Later (n.below i) (n'.below i)
  Raised n n' e := (∃ k, n.calls ≤ k ∧ k < n'.calls ∧ knot.Raises k e)
    ∨ ∃ i, (knot.courses i).Raised (n.below i) (n'.below i) e
  not_spent := knot.not_spent
  later_refl n := ⟨Nat.le_refl _, fun i => (knot.courses i).later_refl (n.below i)⟩
  later_trans h h' :=
    ⟨Nat.le_trans h.1 h'.1, fun i => (knot.courses i).later_trans (h.2 i) (h'.2 i)⟩
  raised_mono := by
    intro a b c d e hab hbc hcd
    obtain ⟨k, hle, hlt, hk⟩ | ⟨i, hi⟩ := hbc
    · have hfrom := hab.1
      have hto := hcd.1
      exact .inl ⟨k, by omega, by omega, hk⟩
    · exact .inr ⟨i, (knot.courses i).raised_mono (hab.2 i) hi (hcd.2 i)⟩

/-- Each source keeps to its course. -/
def Sound (knot : Knot ρ τ) (sources : (i : ι) → Forward (τ i) α) : Prop :=
  ∀ i, (knot.courses i).Sound (sources i)

/-- What holds of a stretch of work that meets no end of its own. -/
structure Moved (knot : Knot ρ τ) (n : Node ρ τ) (r : Except Failure β) (n' : Node ρ τ) :
    Prop where
  fits : knot.Fits n'
  later : knot.course.Later n n'
  raised : ∀ e, r = .error e → e.isEnd = true → knot.course.Raised n n' e

variable {knot : Knot ρ τ} {n n₁ n₂ : Node ρ τ}

theorem moved_refl (hfits : knot.Fits n) (b : β) : knot.Moved n (.ok b) n :=
  ⟨hfits, knot.course.later_refl n, nofun⟩

/-- One stretch after the other. -/
theorem Moved.trans {a : α} {r : Except Failure β} (h : knot.Moved n (.ok a) n₁)
    (h' : knot.Moved n₁ r n₂) : knot.Moved n r n₂ where
  fits := h'.fits
  later := knot.course.later_trans h.later h'.later
  raised e hr he :=
    knot.course.raised_mono h.later (h'.raised e hr he) (knot.course.later_refl n₂)

/-- It does not matter what the stretch answered. -/
theorem Moved.answer {a : α} (h : knot.Moved n (.ok a) n₁) (b : β) : knot.Moved n (.ok b) n₁ :=
  ⟨h.fits, h.later, nofun⟩

/-- A failure ends what comes after the stretch as well. -/
theorem Moved.error {e : Failure} (h : knot.Moved n (.error e : Except Failure α) n₁) :
    knot.Moved n (.error e : Except Failure β) n₁ where
  fits := h.fits
  later := h.later
  raised e' he' := h.raised e' (congrArg Except.error (Except.error.inj he'))

/-- What the combinator keeps for itself does not count. -/
theorem Moved.of_own {own : ρ} {r : Except Failure α} (h : knot.Moved (Node.own.set own n) r n₁) :
    knot.Moved n r n₁ :=
  ⟨h.fits, h.later, h.raised⟩

theorem Moved.set_own {r : Except Failure α} (h : knot.Moved n r n₁) (own : ρ) :
    knot.Moved n r (Node.own.set own n₁) :=
  ⟨h.fits, h.later, h.raised⟩

theorem moved_called {r : Except Failure β} (hfits : knot.Fits n)
    (hraises : ∀ e, r = .error e → knot.Raises n.calls e) :
    knot.Moved n r { n with calls := n.calls + 1 } where
  fits := hfits
  later := ⟨Nat.le_succ _, fun i => (knot.courses i).later_refl (n.below i)⟩
  raised e hr _ := .inl ⟨n.calls, Nat.le_refl _, Nat.lt_succ_self _, hraises e hr⟩

/-! ### One source. -/

section

variable [DecidableEq ι] {i : ι} {t : τ i} {sources : (i : ι) → Forward (τ i) α}

theorem fits_put (h : knot.Fits n) (ht : (knot.courses i).Fit t) :
    knot.Fits ((Node.child i).set t n) := by
  intro j
  by_cases hji : j = i
  · subst hji
    rw [Node.below_child_set_self]
    exact ht
  · rw [Node.below_child_set_of_ne n t hji]
    exact h j

theorem later_put (ht : (knot.courses i).Later (n.below i) t) :
    knot.course.Later n ((Node.child i).set t n) := by
  refine ⟨Nat.le_refl _, ?_⟩
  intro j
  by_cases hji : j = i
  · subst hji
    rw [Node.below_child_set_self]
    exact ht
  · rw [Node.below_child_set_of_ne n t hji]
    exact (knot.courses j).later_refl (n.below j)

theorem raised_put {e : Failure} (ht : (knot.courses i).Raised (n.below i) t e) :
    knot.course.Raised n ((Node.child i).set t n) e := by
  refine .inr ⟨i, ?_⟩
  rw [Node.below_child_set_self]
  exact ht

/-- A source that is asked whether it has more meets no end. -/
theorem after_ask (hsound : knot.Sound sources) (hfits : knot.Fits n) (i : ι) :
    ((sources i).hasNext.within (Node.child i)).After n fun r n' =>
      knot.Moved n r n'
        ∧ ∃ t, n' = (Node.child i).set t n ∧ (knot.courses i).Asked (n.below i) r t := by
  refine (Act.After.within ((hsound i).hasNext _ (hfits i))).mono ?_
  rintro r n' ⟨t, rfl, h⟩
  exact ⟨⟨fits_put hfits h.fit, later_put h.later, fun e hr he => raised_put (h.raised e hr he)⟩,
    t, rfl, h⟩

/-- The same of a source that is asked under a seal. -/
theorem after_ask_sealed (hsound : knot.Sound sources) (hfits : knot.Fits n) (i : ι) :
    ((sources i).hasNext.within (Node.child i)).sealed.After n fun r n' =>
      knot.Moved n r n'
        ∧ ∃ t, n' = (Node.child i).set t n ∧ (knot.courses i).Asked (n.below i) r t := by
  refine (after_ask hsound hfits i).sealed (fun _ _ h => h) ?_
  rintro e e' n' ⟨hmoved, t, rfl, h⟩ he'
  have hnever : ∀ {P : Prop}, e'.isEnd = true → P := fun he =>
    absurd (he'.symm.trans he) Bool.false_ne_true
  refine ⟨⟨hmoved.fits, hmoved.later, ?_⟩, t, rfl, Course.asked_error h.fit h.later
    (h.not_ready (by simp)) (h.not_spent (by simp)) fun he => hnever he⟩
  intro e₁ hr he
  obtain rfl := Except.error.inj hr
  exact hnever he

theorem after_step (hsound : knot.Sound sources) (hfits : knot.Fits n) (i : ι) :
    ((sources i).next.within (Node.child i)).After n fun r n' =>
      ∃ t, n' = (Node.child i).set t n ∧ (knot.courses i).Stepped (n.below i) r t :=
  Act.After.within ((hsound i).next _ (hfits i))

/-- A source that has its next element at hand meets no end when it is stepped. -/
theorem after_step_ready (hsound : knot.Sound sources) (hfits : knot.Fits n)
    (hready : (knot.courses i).Ready (n.below i)) :
    ((sources i).next.within (Node.child i)).After n fun r n' =>
      knot.Moved n r n'
        ∧ ∃ t, n' = (Node.child i).set t n ∧ (knot.courses i).Stepped (n.below i) r t := by
  refine (after_step hsound hfits i).mono ?_
  rintro r n' ⟨t, rfl, h⟩
  exact ⟨⟨fits_put hfits h.fit, later_put h.later,
    fun e hr he => raised_put (h.raised_of_ready hready hr he)⟩, t, rfl, h⟩

end

end Knot

/-! ## §3. Callbacks. -/

/-- A function of the user, by the number of times that it was called before, and what an element
looks like in a report. -/
structure Callback (α β : Type) where
  steps : Nat → α → Except Failure β
  report : α → Except Failure String

namespace Callback

/-- The function, called under a guard. -/
def ask (cb : Callback α β) (mode : Mode) (x : α) : Act (Node ρ τ) β :=
  (Guard.steady mode cb.report).call (fun x => Feed.pull (fun k => cb.steps k x) Node.count) x

/-- What can reach the caller if the `k`-th call fails.  That call is made once, with one element; a
node counts its calls and does not keep what they are made with, so that any element for which the
call would fail like this counts here.  Of a function whose `k`-th result does not depend on the
element it is just what does reach the caller. -/
def Raises (cb : Callback α β) (mode : Mode) (k : Nat) (e : Failure) : Prop :=
  ∃ x cause, cb.steps k x = .error cause ∧ Guard.raised mode cb.report x cause = e

theorem after_ask {knot : Knot ρ τ} {n : Node ρ τ} {cb : Callback α β} {mode : Mode}
    (hraises : knot.Raises = cb.Raises mode) (hfits : knot.Fits n) (x : α) :
    (cb.ask mode x).After n fun r n' =>
      knot.Moved n r n' ∧ n' = { n with calls := n.calls + 1 } := by
  have hpull : Feed.pull (fun k => cb.steps k x) Node.count n
      = .of (cb.steps n.calls x) { n with calls := n.calls + 1 } := Feed.pull_apply n
  cases hstep : cb.steps n.calls x with
  | ok y =>
      rw [hstep] at hpull
      exact Act.after_of_value (Guard.call_of_value hpull) ⟨Knot.moved_called hfits nofun, rfl⟩
  | error cause =>
      rw [hstep] at hpull
      refine Act.after_of_failure (Guard.call_of_failure hpull) ⟨Knot.moved_called hfits ?_, rfl⟩
      intro e he
      rw [hraises]
      exact ⟨x, cause, hstep, Except.error.inj he⟩

end Callback

end Cursors
