/-
  Cursors.Combinator.Guard
  ────────────────────────
  **CALLING THE USER'S FUNCTIONS.**

  A combinator calls the user's function on an element long after it was
  built.  In mode `wrap` a failure of that function is reported together
  with the element and the place where the combinator was built; in mode
  `passthrough` it reaches the caller as it is.  A failure that already is
  such a report is never wrapped a second time, and a request to leave the
  program is not touched at all.
-/
import Cursors.Action

namespace Cursors

/-- How failures of the user's functions reach the caller. -/
inductive Mode where
  | wrap
  | passthrough
  deriving DecidableEq, Repr

/-- The name of a mode. -/
def Mode.name : Mode → String
  | .wrap => "wrap"
  | .passthrough => "passthrough"

/-- What a guarded call needs to know: the mode in force, and the report on an element, as far
as there can be one. -/
structure Guard (σ α : Type) where
  mode : σ → Mode
  report : σ → α → Except Failure String

namespace Guard

variable {σ α β : Type}

/-- Whether a failure is to be reported together with its element. -/
def wraps (mode : Mode) (e : Failure) : Bool :=
  e.isOrdinary && mode == .wrap && !e.isEvaluation

/-- Call `f` on an element. -/
def call (guard : Guard σ α) (f : α → Act σ β) (x : α) : Act σ β := fun s =>
  match f x s with
  -- The mode after the call counts, since the function may have changed it.
  | .failure e s' =>
      if wraps (guard.mode s') e then
        match guard.report s' x with
        | .ok report => .failure (.evaluation report e) s'
        | .error refusal => .failure refusal s'
      else .failure e s'
  | outcome => outcome

end Guard

end Cursors
