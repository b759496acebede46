/-
  Cursors.Number.Binary
  ─────────────────────
  **BINARY NUMBERS, EXACTLY.**

  A number in binary64 form is taken apart into a sign, a natural
  coefficient and a power of two, so that it can be compared with integers
  exactly and rounded to fewer digits without error.  Rounding goes to the
  nearest value, a half to the even coefficient.
-/
import Cursors.Number.Power

namespace Cursors.Number

/-! ## §1. Taking a number apart. -/

/-- A binary64 number. -/
inductive Binary where
  | nan
  | infinite (negative : Bool)
  /-- The value `± coefficient * 2 ^ exponent`. -/
  | finite (negative : Bool) (coefficient : Nat) (exponent : Int)
  deriving DecidableEq, Repr

namespace Binary

/-- The number with these bits. -/
def ofBits (bits : UInt64) : Binary :=
  let n := bits.toNat
  let negative := n / twoTo 63 == 1
  let exponent : Nat := n / twoTo 52 % twoTo 11
  let fraction : Nat := n % twoTo 52
  if exponent == 2047 then
    if fraction == 0 then .infinite negative else .nan
  -- The smallest numbers have no implied leading digit.
  else if exponent == 0 then .finite negative fraction (-1074)
  else .finite negative (twoTo 52 + fraction) ((exponent : Int) - 1075)

/-- The bits of the one value that stands for all that are not a number. -/
def nanBits : UInt64 := 0x7ff8000000000000

/-- The bits of an infinity. -/
def infinityBits (negative : Bool) : UInt64 :=
  if negative then 0xfff0000000000000 else 0x7ff0000000000000

/-! ## §2. Order. -/

/-- An integer times a power of two, or something beyond all of them. -/
inductive Magnitude where
  | nan
  | infinite (negative : Bool)
  | exact (n : Int) (exponent : Int)
  deriving DecidableEq, Repr

/-- The magnitude of a number. -/
def magnitude : Binary → Magnitude
  | .nan => .nan
  | .infinite negative => .infinite negative
  | .finite negative m q => .exact (if negative then -(m : Int) else m) q

end Binary

namespace Binary.Magnitude

/-- The order of two magnitudes, where there is one. -/
def compare : Magnitude → Magnitude → Option Ordering
  | .nan, _ | _, .nan => none
  | .infinite a, .infinite b =>
      some (if a == b then .eq else if a then .lt else .gt)
  | .infinite a, .exact .. => some (if a then .lt else .gt)
  | .exact .., .infinite b => some (if b then .gt else .lt)
  | .exact m p, .exact n q =>
      let low := min p q
      some (Ord.compare (m * twoTo (p - low).toNat) (n * twoTo (q - low).toNat))

/-- An integer as a magnitude. -/
def ofInt (n : Int) : Magnitude := .exact n 0

end Binary.Magnitude

/-! ## §3. Rounding. -/

/-- A binary format: the digits of a coefficient, the least exponent of its last digit, and the
first power of two that is too large. -/
structure BinaryFormat where
  digits : Nat
  least : Int
  limit : Int

namespace BinaryFormat

/-- Sixty-four bits. -/
def double : BinaryFormat := ⟨53, -1074, 1024⟩

/-- Thirty-two bits. -/
def single : BinaryFormat := ⟨24, -149, 128⟩

/-- Sixteen bits. -/
def half : BinaryFormat := ⟨11, -24, 16⟩

/-- The quotient of `n` by `2 ^ shift`, to nearest, a half to the even side. -/
def shiftNearest (n shift : Nat) : Nat :=
  let quotient := n / twoTo shift
  let rest := 2 * (n % twoTo shift)
  if rest < twoTo shift then quotient
  else if twoTo shift < rest then quotient + 1
  -- Exactly half of a step.
  else quotient + quotient % 2

/-- The coefficient and exponent of the value of the format nearest to `m * 2 ^ q`, if it is
not too large. -/
def round (format : BinaryFormat) (m : Nat) (q : Int) : Option (Nat × Int) :=
  if m == 0 then some (0, format.least)
  else
    let length : Int := Nat.log2 m + 1
    let exponent := max (q + length - format.digits) format.least
    let (coefficient, exponent) :=
      if exponent ≤ q then (m, q) else (shiftNearest m (exponent - q).toNat, exponent)
    -- Rounding can carry into a further digit, so the size is checked afterwards.
    if coefficient ≠ 0 ∧ (Nat.log2 coefficient : Int) + exponent ≥ format.limit then none
    else some (coefficient, exponent)

/-- The binary64 bits of `± m * 2 ^ q`, for values that have that form. -/
def encode (negative : Bool) (m : Nat) (q : Int) : UInt64 :=
  let sign := if negative then twoTo 63 else 0
  if m == 0 then UInt64.ofNat sign
  else
    let top : Int := Nat.log2 m + q
    let body :=
      -- The smallest numbers are multiples of the least one.
      if top < -1022 then m * twoTo (q + 1074).toNat
      else
        let scaled :=
          if Nat.log2 m ≤ 52 then m * twoTo (52 - Nat.log2 m) else m / twoTo (Nat.log2 m - 52)
        (top + 1023).toNat * twoTo 52 + (scaled - twoTo 52)
    UInt64.ofNat (sign + body)

/-- The binary64 bits of the value of the format nearest to the number with these bits; what is
too large becomes an infinity. -/
def narrow (format : BinaryFormat) (bits : UInt64) : UInt64 :=
  match Binary.ofBits bits with
  | .nan => Binary.nanBits
  | .infinite negative => Binary.infinityBits negative
  | .finite negative m q =>
      match format.round m q with
      | some (m, q) => encode negative m q
      | none => Binary.infinityBits negative

/-- The binary64 bits nearest to an integer, if it is not too large. -/
def double.ofInt? (n : Int) : Option UInt64 :=
  (double.round n.natAbs 0).map fun (m, q) => encode (n < 0) m q

end BinaryFormat

end Cursors.Number
