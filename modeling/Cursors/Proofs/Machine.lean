/-
  Cursors.Proofs.Machine
  ──────────────────────
  **MACHINES THAT SAY WHAT REQUESTS COME TO.**

  A machine says of each request what it comes to and where it leads.  What
  a source does is described by relating its states to those of a machine:
  each request comes to what the machine says, and leaves a state behind
  that is related to where the machine is led (`Obeys`).  Then every row of
  requests does.
-/
import Cursors.Proofs.After

namespace Cursors

variable {κ σ ρ α β γ : Type}

/-- What an outcome comes to, and what is seen of the state then. -/
def Outcome.seen (look : σ → β) : Outcome σ α → Option (Except Failure α × β)
  | .value a s => some (.ok a, look s)
  | .failure e s => some (.error e, look s)
  | .unfinished => none

theorem Outcome.seen_of (look : σ → β) (r : Except Failure α) (s : σ) :
    (Outcome.of r s).seen look = some (r, look s) := by
  cases r <;> rfl

/-- What requests come to, one after the other, and what is seen after each. -/
def replies (respond : κ → ρ → Except Failure β × ρ) (look : ρ → γ) :
    List κ → ρ → List (Except Failure β × γ)
  | [], _ => []
  | request :: requests, t =>
      ((respond request t).1, look (respond request t).2)
        :: replies respond look requests (respond request t).2

/-- Where requests lead, one after the other. -/
def led (respond : κ → ρ → Except Failure β × ρ) (requests : List κ) (t : ρ) : ρ :=
  requests.foldl (fun t request => (respond request t).2) t

/-- What a step preserves holds wherever requests lead. -/
theorem led_of_step {respond : κ → ρ → Except Failure β × ρ} {P : ρ → Prop}
    (hstep : ∀ request t, P t → P (respond request t).2) (requests : List κ) {t : ρ} (h : P t) :
    P (led respond requests t) := by
  induction requests generalizing t with
  | nil => exact h
  | cons request requests ih => exact ih (hstep request t h)

/-- Each request comes to what the machine says, and what is seen of the state is what is seen of
the machine. -/
structure Obeys (ask : κ → Act σ β) (look : σ → γ) (respond : κ → ρ → Except Failure β × ρ)
    (look' : ρ → γ) (Shows : σ → ρ → Prop) : Prop where
  look_eq : ∀ {s t}, Shows s t → look s = look' t
  asked : ∀ {s t}, Shows s t → ∀ request,
    ∃ s', ask request s = .of (respond request t).1 s' ∧ Shows s' (respond request t).2

/-- Every row of requests comes to what the machine says. -/
theorem Obeys.transcript_eq {ask : κ → Act σ β} {look : σ → γ}
    {respond : κ → ρ → Except Failure β × ρ} {look' : ρ → γ} {Shows : σ → ρ → Prop}
    (h : Obeys ask look respond look' Shows) (requests : List κ) {s : σ} {t : ρ}
    (hs : Shows s t) :
    (transcript ask requests s).map (Outcome.seen look)
      = (replies respond look' requests t).map some := by
  induction requests generalizing s t with
  | nil => rfl
  | cons request requests ih =>
      obtain ⟨s', hask, hs'⟩ := h.asked hs request
      rw [transcript_cons_of hask, List.map_cons, Outcome.seen_of, ih hs', h.look_eq hs']
      rfl

end Cursors
