/-
  Cursors.Proofs.Tandem.Coupling
  ──────────────────────────────
  **TWO RUNS IN TANDEM.**

  Two actions run in tandem if, from states that meet, they come to the same:
  both answer alike in states that meet, both fail, or both run out of fuel.
  A coupling says what it is for states to meet, and what is known of two
  runs that have failed; the failures themselves may differ.

  There is one rule for each way in which actions are put together, so that
  a combinator of sources that run in tandem does so as well.  There is no
  rule for catching a failure: what catches one may come to different ends
  on different failures.  A seal, which only renames failures, leads from
  one coupling to another (`Coupling.Seals`).
-/
import Cursors.Action

namespace Cursors

variable {σ τ υ α β : Type}

/-! ## §1. Couplings. -/

/-- What is kept of two runs while they go on, and what is known once they have failed. -/
structure Coupling (σ τ : Type) where
  Meet : σ → τ → Prop
  Failed : Failure → σ → Failure → τ → Prop
  /-- The same failure may befall both. -/
  failed_of_meet : ∀ {s t}, Meet s t → ∀ e, Failed e s e t

namespace Coupling

/-- The two outcomes belong together. -/
def Outcomes (c : Coupling σ τ) : Outcome σ α → Outcome τ α → Prop
  | .value a s, .value b t => a = b ∧ c.Meet s t
  | .failure e s, .failure e' t => c.Failed e s e' t
  | .unfinished, .unfinished => True
  | _, _ => False

variable {c : Coupling σ τ} {o : Outcome σ α} {o' : Outcome τ α}

/-- Both have answered, both have failed, or both have run out of fuel. -/
theorem Outcomes.split (h : c.Outcomes o o') :
    (∃ a s t, o = .value a s ∧ o' = .value a t ∧ c.Meet s t)
      ∨ (∃ e s e' t, o = .failure e s ∧ o' = .failure e' t ∧ c.Failed e s e' t)
      ∨ (o = .unfinished ∧ o' = .unfinished) := by
  cases o with
  | value a s =>
      cases o' with
      | value b t =>
          obtain ⟨rfl, hmeet⟩ := h
          exact .inl ⟨a, s, t, rfl, rfl, hmeet⟩
      | failure | unfinished => exact h.elim
  | failure e s =>
      cases o' with
      | failure e' t => exact .inr (.inl ⟨e, s, e', t, rfl, rfl, h⟩)
      | value | unfinished => exact h.elim
  | unfinished =>
      cases o' with
      | unfinished => exact .inr (.inr ⟨rfl, rfl⟩)
      | value | failure => exact h.elim

end Coupling

/-- The failure that a seal makes of one: an end is a failure like others, but no end any more. -/
def Failure.enclosed (e : Failure) : Failure := if e.isEnd then .endedInside e else e

theorem Failure.enclosed_of_end {e : Failure} (h : e.isEnd = true) :
    e.enclosed = .endedInside e := by
  unfold enclosed
  rw [if_pos h]

theorem Failure.enclosed_of_not_end {e : Failure} (h : e.isEnd = false) : e.enclosed = e := by
  unfold enclosed
  rw [h]
  rfl

/-- A seal within a seal does nothing. -/
theorem Failure.enclosed_enclosed (e : Failure) : e.enclosed.enclosed = e.enclosed := by
  cases he : e.isEnd with
  | true =>
      rw [enclosed_of_end he]
      rfl
  | false => rw [enclosed_of_not_end he, enclosed_of_not_end he]

/-- What has failed in the first coupling has failed in the second one once it is sealed. -/
structure Coupling.Seals (c c' : Coupling σ τ) : Prop where
  meet_iff : ∀ s t, c.Meet s t ↔ c'.Meet s t
  failed : ∀ {e s e' t}, c.Failed e s e' t → c'.Failed e.enclosed s e'.enclosed t

/-! ## §2. Actions in tandem. -/

namespace Act

/-- From states that meet, both actions come to the same. -/
def Tandem (c : Coupling σ τ) (x : Act σ α) (y : Act τ α) : Prop :=
  ∀ s t, c.Meet s t → c.Outcomes (x s) (y t)

variable {c c' : Coupling σ τ} {x : Act σ α} {y : Act τ α} {f : α → Act σ β} {g : α → Act τ β}

theorem tandem_pure (a : α) : Tandem c (pure a) (pure a) := fun _ _ h => ⟨rfl, h⟩

theorem tandem_fail (e : Failure) : Tandem c (fail e : Act σ α) (fail e) :=
  fun _ _ h => c.failed_of_meet h e

theorem tandem_unfinished : Tandem c (unfinished : Act σ α) unfinished := fun _ _ _ => trivial

theorem Tandem.bind (h : Tandem c x y) (hnext : ∀ a, Tandem c (f a) (g a)) :
    Tandem c (x >>= f) (y >>= g) := by
  intro s t hmeet
  simp only [bind_apply]
  obtain ⟨a, s', t', hx, hy, hmeet'⟩ | ⟨e, s', e', t', hx, hy, hfailed⟩ | ⟨hx, hy⟩ :=
    (h s t hmeet).split
  · rw [hx, hy]
    exact hnext a s' t' hmeet'
  · rw [hx, hy]
    exact hfailed
  · rw [hx, hy]
    trivial

theorem Tandem.sealed (hseals : c.Seals c') (h : Tandem c x y) :
    Tandem c' x.sealed y.sealed := by
  intro s t hmeet
  unfold Act.sealed
  obtain ⟨a, s', t', hx, hy, hmeet'⟩ | ⟨e, s', e', t', hx, hy, hfailed⟩ | ⟨hx, hy⟩ :=
    (h s t ((hseals.meet_iff s t).mpr hmeet)).split
  · rw [hx, hy]
    exact ⟨rfl, (hseals.meet_iff s' t').mp hmeet'⟩
  · rw [hx, hy]
    exact hseals.failed hfailed
  · rw [hx, hy]
    trivial

end Act

/-! ## §3. Parts of the state. -/

/-- The two parts are the same wherever the states meet, and may be written alike. -/
structure Field.Alike (c : Coupling σ τ) (a : Field σ υ) (b : Field τ υ) : Prop where
  get_eq : ∀ {s t}, c.Meet s t → a.get s = b.get t
  meet_set : ∀ {s t}, c.Meet s t → ∀ u, c.Meet (a.set u s) (b.set u t)

namespace Field.Alike

variable {c : Coupling σ τ} {a : Field σ υ} {b : Field τ υ}

theorem read (h : Field.Alike c a b) : Act.Tandem c a.read b.read :=
  fun _ _ hmeet => ⟨h.get_eq hmeet, hmeet⟩

theorem write (h : Field.Alike c a b) (u : υ) : Act.Tandem c (a.write u) (b.write u) :=
  fun _ _ hmeet => ⟨rfl, h.meet_set hmeet u⟩

theorem modify (h : Field.Alike c a b) (f : υ → υ) :
    Act.Tandem c (a.modify f) (b.modify f) := by
  intro s t hmeet
  refine ⟨rfl, ?_⟩
  show c.Meet (a.set (f (a.get s)) s) (b.set (f (b.get t)) t)
  rw [h.get_eq hmeet]
  exact h.meet_set hmeet _

end Field.Alike

/-! ## §4. Sources. -/

/-- The two sources run in tandem, whatever is asked of them. -/
structure Forward.Tandem (c : Coupling σ τ) (source : Forward σ α) (other : Forward τ α) :
    Prop where
  hasNext : Act.Tandem c source.hasNext other.hasNext
  next : Act.Tandem c source.next other.next
  remove : Act.Tandem c source.remove other.remove

/-- The same of sources that go in both directions. -/
structure TwoWay.Tandem (c : Coupling σ τ) (source : TwoWay σ α) (other : TwoWay τ α) : Prop
    extends Forward.Tandem c source.toForward other.toForward where
  hasPrevious : Act.Tandem c source.hasPrevious other.hasPrevious
  previous : Act.Tandem c source.previous other.previous
  nextIndex : Act.Tandem c source.nextIndex other.nextIndex
  previousIndex : Act.Tandem c source.previousIndex other.previousIndex
  set : ∀ x, Act.Tandem c (source.set x) (other.set x)
  add : ∀ x, Act.Tandem c (source.add x) (other.add x)

end Cursors
