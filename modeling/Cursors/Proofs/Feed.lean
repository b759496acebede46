/-
  Cursors.Proofs.Feed
  ───────────────────
  **A PLAIN SOURCE, STEP BY STEP.**

  A plain source is a row of steps: each gives an element or fails, and an
  end is a failure like others, after which the source may even go on.  All
  that changes is the number of steps taken.  `given steps m n` lists the
  elements that `n` steps from the `m`-th one on come to.

  A look-ahead over such a source takes a step only if it holds nothing and
  has not met an end.
-/
import Cursors.Primitive.Peek
import Cursors.Proofs.Bench

namespace Cursors

variable {σ α : Type}

/-! ## §1. Steps. -/

namespace Feed

/-- Take the next step. -/
def pull (steps : Nat → Except Failure α) (taken : Field σ Nat) : Act σ α := do
  let n ← taken.read
  taken.write (n + 1)
  Act.ofExcept (steps n)

/-- The elements that come of `n` steps from the `m`-th one on. -/
def given (steps : Nat → Except Failure α) (m n : Nat) : List α :=
  (List.range' m n).filterMap fun k => (steps k).toOption

/-- The steps of a source that gives the elements of a list and has ended then. -/
def ofList (xs : List α) (n : Nat) : Except Failure α :=
  match xs[n]? with
  | some x => .ok x
  | none => .error .ended

variable {steps : Nat → Except Failure α} {taken : Field σ Nat}

theorem pull_apply (s : σ) :
    pull steps taken s = .of (steps (taken.get s)) (taken.set (taken.get s + 1) s) := by
  unfold pull
  simp only [Act.bind_apply, Field.read, Field.write, Act.reading_apply, Act.update_apply,
    Act.ofExcept_apply]

theorem given_add (m a b : Nat) :
    given steps m (a + b) = given steps m a ++ given steps (m + a) b := by
  unfold given
  rw [← List.range'_append_1, List.filterMap_append]

/-- One step more gives at most one element more. -/
theorem given_succ (m n : Nat) :
    given steps m (n + 1) = given steps m n ++ (steps (m + n)).toOption.toList :=
  given_add m n 1

end Feed

/-! ## §2. Looking ahead. -/

namespace Peek

variable {self : Field σ (Peek α)} {pull : Act σ α} {s : σ}

theorem hasNext_of_held {x : α} (h : (self.get s).ahead = some x) :
    hasNext self pull s = .value true s := by
  simp only [hasNext, Act.bind_apply, Field.read_apply, h, Option.isSome_some, if_true]
  rfl

theorem hasNext_of_ended (h : (self.get s).ahead = none) (hend : (self.get s).ended = true) :
    hasNext self pull s = .value false s := by
  simp only [hasNext, Act.bind_apply, Field.read_apply, h, hend, Option.isSome_none,
    Bool.false_eq_true, if_false, if_true]
  rfl

/-- A look-ahead that holds nothing takes a step of the source, and holds what it gives. -/
theorem hasNext_of_value (h : (self.get s).ahead = none) (hend : (self.get s).ended = false)
    {x : α} {s₁ : σ} (hpull : pull s = .value x s₁) :
    hasNext self pull s = .value true (self.set { self.get s₁ with ahead := some x } s₁) := by
  simp only [hasNext, Act.bind_apply, Field.read_apply, h, hend, Option.isSome_none,
    Bool.false_eq_true, if_false, Act.attempt, hpull]
  rfl

theorem hasNext_of_end (h : (self.get s).ahead = none) (hend : (self.get s).ended = false)
    {e : Failure} {s₁ : σ} (hpull : pull s = .failure e s₁) (he : e.isEnd = true) :
    hasNext self pull s = .value false (self.set { self.get s₁ with ended := true } s₁) := by
  simp only [hasNext, Act.bind_apply, Field.read_apply, h, hend, Option.isSome_none,
    Bool.false_eq_true, if_false, Act.attempt, hpull, he, if_true]
  rfl

theorem hasNext_of_failure (h : (self.get s).ahead = none) (hend : (self.get s).ended = false)
    {e : Failure} {s₁ : σ} (hpull : pull s = .failure e s₁) (he : ¬ e.isEnd = true) :
    hasNext self pull s = .failure e s₁ := by
  simp only [hasNext, Act.bind_apply, Field.read_apply, h, hend, Option.isSome_none,
    Bool.false_eq_true, if_false, Act.attempt, hpull, he]

theorem next_of_held {x : α} (h : (self.get s).ahead = some x) :
    next self pull s = .value x (self.set { self.get s with ahead := none } s) := by
  simp only [next, Act.bind_apply, hasNext_of_held h, if_true, Field.read_apply, h]
  rfl

theorem next_of_exhausted {s₁ : σ} (h : hasNext self pull s = .value false s₁) :
    next self pull s = .failure .ended s₁ := by
  simp only [next, Act.bind_apply, h, Bool.false_eq_true, if_false, Act.fail_apply]

end Peek

end Cursors
