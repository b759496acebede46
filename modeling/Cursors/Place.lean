/-
  Cursors.Place
  ─────────────
  **POSITIONS IN CONTAINERS.**

  A position counts elements from the front.  Where it was given as an
  integer of fixed width, it keeps that width and wraps around, so that a
  step forward can lead to a negative position, which counts from the back.
  Where it was given as a truth value, it is one until it moves.
-/
import Cursors.Number.Width

namespace Cursors

/-- A position in a container. -/
inductive Place where
  | plain (n : Nat)
  | truth (b : Bool)
  | fixed (width : Number.Width) (n : Int)
  deriving DecidableEq, Repr

namespace Place

instance : Inhabited Place := ⟨.plain 0⟩

/-- The number that a position stands for. -/
def toInt : Place → Int
  | .plain n => n
  | .truth b => if b then 1 else 0
  | .fixed _ n => n

/-- Whether a position has a fixed width. -/
def isFixed : Place → Bool
  | .fixed .. => true
  | _ => false

/-- The position one further on. -/
def following : Place → Place
  | .plain n => .plain (n + 1)
  | .truth b => .plain (b.toNat + 1)
  | .fixed width n => .fixed width (width.wrap (n + 1))

/-- The position one further back. -/
def preceding : Place → Place
  | .plain n => .plain (n - 1)
  | .truth b => .plain (b.toNat - 1)
  | .fixed width n => .fixed width (width.wrap (n - 1))

/-- Whether a position counts from the front. -/
def fromFront (p : Place) : Bool := 0 ≤ p.toInt

/-- The index that a number stands for among `size` elements; negative ones count from the
back. -/
def index? (size : Nat) (n : Int) : Option Nat :=
  let i := if n < 0 then n + size else n
  if 0 ≤ i ∧ i < size then some i.toNat else none

/-- The point among `size` elements before which a number says that an element goes: clamped to
the ends. -/
def insertionPoint (size : Nat) (n : Int) : Nat :=
  if n < 0 then (n + size).toNat else min n.toNat size

@[simp] theorem toInt_plain (n : Nat) : (plain n).toInt = n := rfl

@[simp] theorem following_plain (n : Nat) : (plain n).following = plain (n + 1) := rfl

@[simp] theorem preceding_plain (n : Nat) : (plain n).preceding = plain (n - 1) := rfl

@[simp] theorem fromFront_plain (n : Nat) : (plain n).fromFront = true := by
  simp [fromFront]

theorem index?_natCast (size n : Nat) :
    index? size n = if n < size then some n else none := by
  simp [index?]
  split <;> split <;> simp_all <;> omega

end Place

end Cursors
