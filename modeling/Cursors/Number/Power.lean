/-
  Cursors.Number.Power
  ────────────────────
  **POWERS OF TWO AND TEN.**

  The scales of binary and of decimal numbers, as natural numbers.
-/
namespace Cursors.Number

/-- A power of two. -/
def twoTo (n : Nat) : Nat := Nat.pow 2 n

/-- A power of ten. -/
def tenTo (n : Nat) : Nat := Nat.pow 10 n

theorem twoTo_succ (n : Nat) : twoTo (n + 1) = twoTo n * 2 := rfl

theorem twoTo_pos (n : Nat) : 0 < twoTo n := Nat.pow_pos (by decide)

end Cursors.Number
