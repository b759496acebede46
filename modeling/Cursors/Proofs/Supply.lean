/-
  Cursors.Proofs.Supply
  ─────────────────────
  **SOURCES THAT DELIVER A LIST.**

  `Gives source Has` is all that a combinator needs to know of a source:
  where `Has s xs`, the source tells whether `xs` is empty, steps through it
  from its head on, and ends at its end.  What else `Has` keeps track of is
  left open, so that one statement serves sources that buffer, share their
  state with others, or are combinators themselves.

  A `Host` is a combinator's own place in the state together with such a
  source, neither of which shows in the other.  A `Group` is the same with
  any number of sources.  A `Pair` is two places, for a source that works on
  both of them.
-/
import Mathlib.Logic.Function.Basic
import Cursors.Action

namespace Cursors

variable {σ τ υ ι α : Type}

/-! ## §1. Sources. -/

/-- Where `Has s xs`, the source has `xs` still to deliver. -/
structure Gives (source : Forward σ α) (Has : σ → List α → Prop) : Prop where
  hasNext_apply : ∀ {s : σ} {xs : List α}, Has s xs →
    ∃ s', source.hasNext s = .value (!xs.isEmpty) s' ∧ Has s' xs
  next_of_cons : ∀ {s : σ} {x : α} {xs : List α}, Has s (x :: xs) →
    ∃ s', source.next s = .value x s' ∧ Has s' xs
  next_of_nil : ∀ {s : σ}, Has s [] → ∃ s', source.next s = .failure .ended s' ∧ Has s' []

/-- All that counts is what is asked and stepped, not what is removed. -/
theorem Gives.of_eq {source source' : Forward σ α} {Has : σ → List α → Prop} (h : Gives source Has)
    (hasNext_eq : source'.hasNext = source.hasNext) (next_eq : source'.next = source.next) :
    Gives source' Has where
  hasNext_apply := by
    rw [hasNext_eq]
    exact h.hasNext_apply
  next_of_cons := by
    rw [next_eq]
    exact h.next_of_cons
  next_of_nil := by
    rw [next_eq]
    exact h.next_of_nil

/-- The same supply, described in other words. -/
theorem Gives.congr {source : Forward σ α} {Has Has' : σ → List α → Prop} (h : Gives source Has)
    (hiff : ∀ s xs, Has' s xs ↔ Has s xs) : Gives source Has' := by
  obtain rfl : Has' = Has := by
    funext s xs
    exact propext (hiff s xs)
  exact h

/-! ## §2. Hosts. -/

/-- Two parts of the state; `Holds s t u` says that they are `t` and `u`. -/
structure Pair (σ τ υ : Type) where
  first : Field σ τ
  second : Field σ υ
  Holds : σ → τ → υ → Prop
  first_get : ∀ {s : σ} {t : τ} {u : υ}, Holds s t u → first.get s = t
  second_get : ∀ {s : σ} {t : τ} {u : υ}, Holds s t u → second.get s = u
  first_set : ∀ {s : σ} {t : τ} {u : υ}, Holds s t u → ∀ t', Holds (first.set t' s) t' u
  second_set : ∀ {s : σ} {t : τ} {u : υ}, Holds s t u → ∀ u', Holds (second.set u' s) t u'

/-- A part `self` of the state beside a source; `Holds s t xs` says that the part is `t` and the
source has `xs` still to deliver. -/
structure Host (σ τ α : Type) where
  self : Field σ τ
  source : Forward σ α
  Holds : σ → τ → List α → Prop
  self_get : ∀ {s : σ} {t : τ} {xs : List α}, Holds s t xs → self.get s = t
  self_set : ∀ {s : σ} {t : τ} {xs : List α}, Holds s t xs → ∀ t', Holds (self.set t' s) t' xs
  gives : ∀ t, Gives source fun s xs => Holds s t xs

/-- A part `self` of the state beside sources named by `ι`; `Holds s t left` says that the part is
`t` and each source `i` has `left i` still to deliver. -/
structure Group (σ τ ι α : Type) [DecidableEq ι] where
  self : Field σ τ
  source : ι → Forward σ α
  Holds : σ → τ → (ι → List α) → Prop
  self_get : ∀ {s : σ} {t : τ} {left : ι → List α}, Holds s t left → self.get s = t
  self_set : ∀ {s : σ} {t : τ} {left : ι → List α}, Holds s t left →
    ∀ t', Holds (self.set t' s) t' left
  gives : ∀ t left i, Gives (source i) fun s xs => Holds s t (Function.update left i xs)

/-! ### What a combinator has left. -/

/-- What is left to give, as far as it depends on the two parts. -/
def Pair.Has (pair : Pair σ τ υ) (Rest : τ → υ → List α → Prop) (s : σ) (ys : List α) : Prop :=
  ∃ t u, pair.Holds s t u ∧ Rest t u ys

/-- What is left to give, as far as it depends on the part and on what its source has left. -/
def Host.Has (host : Host σ τ α) (Rest : τ → List α → List α → Prop) (s : σ) (ys : List α) : Prop :=
  ∃ t xs, host.Holds s t xs ∧ Rest t xs ys

/-- What is left to give, as far as it depends on the part and on what its sources have left. -/
def Group.Has [DecidableEq ι] (g : Group σ τ ι α) (Rest : τ → (ι → List α) → List α → Prop) (s : σ)
    (ys : List α) : Prop :=
  ∃ t left, g.Holds s t left ∧ Rest t left ys

/-! ### One source among many. -/

/-- What a source has left does not count where the source is not named. -/
theorem map_update [DecidableEq ι] {names : List ι} {i : ι} (hi : i ∉ names)
    (left : ι → List α) (xs : List α) :
    names.map (Function.update left i xs) = names.map left := by
  apply List.map_congr_left
  intro j hj
  apply Function.update_of_ne
  rintro rfl
  exact hi hj

section

variable [DecidableEq ι] {source : Forward σ α} {Has : σ → (ι → List α) → Prop} {s : σ}
  {left : ι → List α} {i : ι}

theorem Gives.hasNext_at (h : Gives source fun s xs => Has s (Function.update left i xs))
    (hs : Has s left) : ∃ s', source.hasNext s = .value (!(left i).isEmpty) s' ∧ Has s' left := by
  have hi : Has s (Function.update left i (left i)) := by
    rw [Function.update_eq_self]
    exact hs
  obtain ⟨s', hask, h'⟩ := h.hasNext_apply hi
  rw [Function.update_eq_self] at h'
  exact ⟨s', hask, h'⟩

theorem Gives.next_at_cons (h : Gives source fun s xs => Has s (Function.update left i xs))
    (hs : Has s left) {x : α} {xs : List α} (hi : left i = x :: xs) :
    ∃ s', source.next s = .value x s' ∧ Has s' (Function.update left i xs) := by
  have h₁ : Has s (Function.update left i (x :: xs)) := by
    rw [← hi, Function.update_eq_self]
    exact hs
  exact h.next_of_cons h₁

theorem Gives.next_at_nil (h : Gives source fun s xs => Has s (Function.update left i xs))
    (hs : Has s left) (hi : left i = []) :
    ∃ s', source.next s = .failure .ended s' ∧ Has s' left := by
  have h₁ : Has s (Function.update left i []) := by
    rw [← hi, Function.update_eq_self]
    exact hs
  obtain ⟨s', hnext, h'⟩ := h.next_of_nil h₁
  rw [← hi, Function.update_eq_self] at h'
  exact ⟨s', hnext, h'⟩

end

end Cursors
