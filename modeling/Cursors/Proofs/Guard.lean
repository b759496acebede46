/-
  Cursors.Proofs.Guard
  ────────────────────
  **WHAT A GUARDED CALL COMES TO.**

  A guard does not show where the function answers.  Where it fails, the
  failure is reported with the element or as it is, depending on the mode.
-/
import Cursors.Combinator.Guard

namespace Cursors

variable {σ α β : Type}

namespace Guard

/-- How a failure at an element is reported. -/
def raised (mode : Mode) (report : α → Except Failure String) (x : α) (e : Failure) : Failure :=
  if wraps mode e then
    match report x with
    | .ok text => .evaluation text e
    | .error refusal => refusal
  else e

/-- A guard that depends on the element only. -/
def steady (mode : Mode) (report : α → Except Failure String) : Guard σ α where
  mode _ := mode
  report _ := report

variable {mode : Mode} {report : α → Except Failure String} {f : α → Act σ β} {x : α} {s s' : σ}

theorem call_of_value {guard : Guard σ α} {y : β} (h : f x s = .value y s') :
    guard.call f x s = .value y s' := by
  simp only [call, h]

theorem call_of_failure {e : Failure} (h : f x s = .failure e s') :
    (steady mode report).call f x s = .failure (raised mode report x e) s' := by
  unfold raised
  by_cases hwraps : wraps mode e = true
  · simp only [call, h, steady, hwraps, if_true]
    cases report x <;> rfl
  · simp only [call, h, steady, hwraps]
    rfl

end Guard

end Cursors
