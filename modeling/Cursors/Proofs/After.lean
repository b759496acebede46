/-
  Cursors.Proofs.After
  ────────────────────
  **WHAT HOLDS AFTER AN ACTION.**

  `x.After s Q` says that `Q` holds of what `x` comes to from `s`, answer or
  failure, and of the state that it leaves.  Of an action that runs out of
  fuel nothing is known, and nothing is said.  There is one rule for each
  way in which actions are put together, so that a combinator is gone
  through without looking into its sources.

  `Act.within` is an action on a part of the state, as an action on the
  whole: whatever it does, it does to that part alone.  `transcript` is what
  requests come to that are made one after the other; `Throughout` follows
  such a run with a record beside it, which the run never consults.
-/
import Cursors.Combinator.Guard
import Cursors.Proofs.Feed
import Cursors.Proofs.Part

namespace Cursors

variable {σ τ κ α β : Type}

namespace Act

/-! ## §1. Rules. -/

/-- `Q` holds of what the action comes to. -/
def After (x : Act σ α) (s : σ) (Q : Except Failure α → σ → Prop) : Prop :=
  match x s with
  | .value a s' => Q (.ok a) s'
  | .failure e s' => Q (.error e) s'
  | .unfinished => True

section

variable {x : Act σ α} {f : α → Act σ β} {s s' : σ} {P Q : Except Failure α → σ → Prop}
  {R : Except Failure β → σ → Prop}

theorem after_of_value {a : α} (h : x s = .value a s') (hq : Q (.ok a) s') : x.After s Q := by
  unfold After
  rw [h]
  exact hq

theorem after_of_failure {e : Failure} (h : x s = .failure e s') (hq : Q (.error e) s') :
    x.After s Q := by
  unfold After
  rw [h]
  exact hq

theorem after_of_unfinished (h : x s = .unfinished) : x.After s Q := by
  unfold After
  rw [h]
  trivial

theorem after_of_outcome {r : Except Failure α} (h : x s = .of r s') (hq : Q r s') :
    x.After s Q := by
  cases r with
  | ok a => exact after_of_value h hq
  | error e => exact after_of_failure h hq

/-- What holds after another action holds after one that comes to the same. -/
theorem After.of_eq {y : Act σ α} (h : y.After s' Q) (heq : x s = y s') : x.After s Q := by
  unfold After at h ⊢
  rw [heq]
  exact h

theorem After.mono (h : x.After s P) (hpq : ∀ r s', P r s' → Q r s') : x.After s Q := by
  unfold After at h ⊢
  cases hx : x s with
  | value a s' =>
      rw [hx] at h
      exact hpq _ _ h
  | failure e s' =>
      rw [hx] at h
      exact hpq _ _ h
  | unfinished => trivial

theorem After.and (hp : x.After s P) (hq : x.After s Q) :
    x.After s fun r s' => P r s' ∧ Q r s' := by
  unfold After at hp hq ⊢
  cases hx : x s with
  | value a s' =>
      rw [hx] at hp hq
      exact ⟨hp, hq⟩
  | failure e s' =>
      rw [hx] at hp hq
      exact ⟨hp, hq⟩
  | unfinished => trivial

/-- One action after the other; a failure of the first is a failure of both. -/
theorem After.bind (h : x.After s P) (hok : ∀ a s', P (.ok a) s' → (f a).After s' R)
    (herror : ∀ e s', P (.error e) s' → R (.error e) s') : (x >>= f).After s R := by
  unfold After at h
  cases hx : x s with
  | value a s' =>
      rw [hx] at h
      have hbind : (x >>= f) s = f a s' := by rw [bind_apply, hx]
      have hnext := hok a s' h
      unfold After at hnext ⊢
      rw [hbind]
      exact hnext
  | failure e s' =>
      rw [hx] at h
      have hbind : (x >>= f) s = .failure e s' := by rw [bind_apply, hx]
      exact after_of_failure hbind (herror e s' h)
  | unfinished =>
      have hbind : (x >>= f) s = .unfinished := by rw [bind_apply, hx]
      exact after_of_unfinished hbind

theorem After.bind_value {a : α} (h : x s = .value a s') (hnext : (f a).After s' R) :
    (x >>= f).After s R :=
  hnext.of_eq (by rw [bind_apply, h])

/-- A failure of a sealed action is never an end. -/
theorem After.sealed (h : x.After s P) (hok : ∀ a s', P (.ok a) s' → Q (.ok a) s')
    (herror : ∀ e e' s', P (.error e) s' → e'.isEnd = false → Q (.error e') s') :
    x.sealed.After s Q := by
  unfold After at h
  cases hx : x s with
  | value a s' =>
      rw [hx] at h
      exact after_of_value (by unfold Act.sealed; rw [hx]) (hok a s' h)
  | failure e s' =>
      rw [hx] at h
      have hsealed : x.sealed s = .failure (if e.isEnd then .endedInside e else e) s' := by
        unfold Act.sealed
        rw [hx]
      refine after_of_failure hsealed (herror e _ s' h ?_)
      cases he : e.isEnd with
      | true => rfl
      | false => exact he
  | unfinished => exact after_of_unfinished (by unfold Act.sealed; rw [hx])

theorem after_pure {a : α} (h : Q (.ok a) s) : (pure a : Act σ α).After s Q := h

theorem after_fail {e : Failure} (h : Q (.error e) s) : (fail e : Act σ α).After s Q := h

theorem after_read {part : Field σ τ} {f : τ → Act σ β} (h : (f (part.get s)).After s R) :
    (part.read >>= f).After s R := h

theorem after_modify {part : Field σ τ} {g : τ → τ} {f : Unit → Act σ β}
    (h : (f ()).After (part.set (g (part.get s)) s) R) : (part.modify g >>= f).After s R := h

theorem after_write {part : Field σ τ} {t : τ} {f : Unit → Act σ β}
    (h : (f ()).After (part.set t s) R) : (part.write t >>= f).After s R := h

end

/-! ## §2. Actions on a part of the state. -/

/-- An action on a part of the state, as an action on the whole. -/
def within (part : Field σ τ) (x : Act τ α) : Act σ α := fun s =>
  match x (part.get s) with
  | .value a t => .value a (part.set t s)
  | .failure e t => .failure e (part.set t s)
  | .unfinished => .unfinished

theorem within_of {part : Field σ τ} {x : Act τ α} {s : σ} {r : Except Failure α} {t : τ}
    (h : x (part.get s) = .of r t) : x.within part s = .of r (part.set t s) := by
  unfold Act.within
  rw [h]
  cases r <;> rfl

theorem After.within {part : Field σ τ} {x : Act τ α} {s : σ} {Q : Except Failure α → τ → Prop}
    (h : x.After (part.get s) Q) :
    (x.within part).After s fun r s' => ∃ t, s' = part.set t s ∧ Q r t := by
  unfold After Act.within at *
  cases hx : x (part.get s) with
  | value a t =>
      rw [hx] at h
      exact ⟨t, rfl, h⟩
  | failure e t =>
      rw [hx] at h
      exact ⟨t, rfl, h⟩
  | unfinished => trivial

end Act

/-- To read a list in the state, at whatever position, changes nothing. -/
theorem Sequence.after_get_ofList (part : Field σ (List α)) (p : Place) (s : σ) :
    ((Sequence.ofList part).get p).After s fun _ s' => s' = s := by
  cases hx : (Place.index? (part.get s).length p.toInt).bind ((part.get s)[·]?) with
  | some x =>
      have hget : (Sequence.ofList part).get p s = .value x s := by
        simp only [Sequence.ofList, Act.bind_apply, Field.read_apply, hx, Act.pure_apply]
      exact Act.after_of_value hget rfl
  | none =>
      have hget : (Sequence.ofList part).get p s = .failure (.refused .index) s := by
        simp only [Sequence.ofList, Act.bind_apply, Field.read_apply, hx, Act.fail_apply]
      exact Act.after_of_failure hget rfl

/-- A source that works on a part of the state. -/
def Forward.within (part : Field σ τ) (source : Forward τ α) : Forward σ α where
  hasNext := source.hasNext.within part
  next := source.next.within part
  remove := source.remove.within part

/-! ## §3. Requests one after the other. -/

/-- What requests come to: each finds the state that the one before has left behind, also where
that one failed. -/
def transcript (ask : κ → Act σ β) : List κ → σ → List (Outcome σ β)
  | [], _ => []
  | request :: requests, s =>
      match ask request s with
      | .value b s' => .value b s' :: transcript ask requests s'
      | .failure e s' => .failure e s' :: transcript ask requests s'
      | .unfinished => [.unfinished]

theorem transcript_cons_of {ask : κ → Act σ β} {request : κ} {requests : List κ} {s s' : σ}
    {r : Except Failure β} (h : ask request s = .of r s') :
    transcript ask (request :: requests) s = .of r s' :: transcript ask requests s' := by
  simp only [transcript, h]
  cases r <;> rfl

/-! ## §4. Runs with a record. -/

/-- Every request of a run comes to something and has the property `P`, given the record before
it. -/
def Throughout {ν : Type} (ask : κ → Act σ β) (note : ν → κ → σ → Except Failure β → σ → ν)
    (P : ν → κ → σ → Except Failure β → σ → Prop) : List κ → ν → σ → Prop
  | [], _, _ => True
  | request :: requests, l, s => ∃ r s', ask request s = .of r s' ∧ P l request s r s'
      ∧ Throughout ask note P requests (note l request s r s') s'

section

variable {ν : Type} {ask : κ → Act σ β} {note : ν → κ → σ → Except Failure β → σ → ν}
  {P : ν → κ → σ → Except Failure β → σ → Prop}

/-- What holds of the record and the state before each request, given the number of those that are
still to come, gives the property of the request. -/
theorem throughout_of_invariant (Inv : Nat → ν → σ → Prop) {requests : List κ}
    (hstep : ∀ k l s request, request ∈ requests → Inv (k + 1) l s →
      ∃ r s', ask request s = .of r s' ∧ P l request s r s' ∧ Inv k (note l request s r s') s')
    {l : ν} {s : σ} (h : Inv requests.length l s) : Throughout ask note P requests l s := by
  induction requests generalizing l s with
  | nil => trivial
  | cons request requests ih =>
      obtain ⟨r, s', hask, hP, h'⟩ := hstep _ l s request List.mem_cons_self h
      exact ⟨r, s', hask, hP,
        ih (fun k l s next hnext => hstep k l s next (List.mem_cons_of_mem _ hnext)) h'⟩

end

end Cursors
