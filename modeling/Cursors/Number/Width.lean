/-
  Cursors.Number.Width
  ────────────────────
  **INTEGERS OF FIXED WIDTH.**

  A width has so many bits, with or without a sign.  It holds the integers
  between its bounds; every other integer wraps around to the one that it
  differs from by a multiple of the number of codes.
-/
import Cursors.Number.Power

namespace Cursors.Number

/-- A width of integers. -/
inductive Width where
  | signed (bits : Nat)
  | unsigned (bits : Nat)
  deriving DecidableEq, Repr

namespace Width

/-- The least integer of a width. -/
def least : Width → Int
  | .signed bits => -(twoTo (bits - 1) : Int)
  | .unsigned _ => 0

/-- The greatest integer of a width. -/
def greatest : Width → Int
  | .signed bits => twoTo (bits - 1) - 1
  | .unsigned bits => twoTo bits - 1

/-- The number of bits. -/
def bits : Width → Nat
  | .signed bits | .unsigned bits => bits

/-- Whether an integer has this width. -/
def holds (w : Width) (n : Int) : Bool := decide (w.least ≤ n ∧ n ≤ w.greatest)

/-- The integer of this width that an integer wraps around to. -/
def wrap (w : Width) (n : Int) : Int :=
  match w with
  | .signed bits => Int.bmod n (twoTo bits)
  | .unsigned bits => n % twoTo bits

/-- The name of a width. -/
def name : Width → String
  | .signed bits => "int" ++ toString bits
  | .unsigned bits => "uint" ++ toString bits

/-- One byte, the least first, for each eight bits of an integer. -/
def bytes (w : Width) (n : Int) : List UInt8 :=
  (List.range (w.bits / 8)).map fun i => UInt8.ofNat (n / twoTo (8 * i) % 256).toNat

/-- An integer that has the width stays as it is. -/
theorem wrap_of_holds {w : Width} (hw : w ≠ .signed 0) {n : Int} (h : w.holds n) :
    w.wrap n = n := by
  have h := of_decide_eq_true h
  cases w with
  | unsigned bits =>
      simp only [least, greatest] at h
      exact Int.emod_eq_of_lt h.1 (by omega)
  | signed bits =>
      cases bits with
      | zero => exact absurd rfl hw
      | succ b =>
          simp only [least, greatest, Nat.add_sub_cancel] at h
          have hb : ((twoTo (b + 1) : Nat) : Int) = twoTo b * 2 := by
            rw [twoTo_succ]; exact Int.natCast_mul _ _
          show Int.bmod n (twoTo (b + 1)) = n
          apply Int.bmod_eq_of_le_mul_two <;> omega

/-- The greatest integer of a width stays, and one above it becomes the least. -/
example : [127, 128].map (Width.signed 8).wrap = [127, -128]
    ∧ [255, 256].map (Width.unsigned 8).wrap = [255, 0] := by decide

end Width

end Cursors.Number
