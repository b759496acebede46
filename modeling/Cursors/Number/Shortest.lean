/-
  Cursors.Number.Shortest
  ───────────────────────
  **THE SHORTEST DECIMAL OF A BINARY NUMBER.**

  A binary number stands for the interval of the reals that round to it.
  `shortest` gives the decimal with the fewest digits in that interval, and
  of two such decimals the nearer one, all in natural numbers.  `textIn` lays
  it out: positionally from `10 ^ -4` up to a power of ten that depends on
  the format, otherwise with a signed exponent of at least two digits, and
  always with a point or an exponent.
-/
import Cursors.Number.Binary

namespace Cursors.Number

/-! ## §1. The interval of a number. -/

/-- A finite value `m * 2 ^ q`, with a mark if the gap below it is half the gap above. -/
structure Rounded where
  m : Nat
  q : Int
  narrowBelow : Bool

/-- The value `digits * 10 ^ exponent`. -/
structure Decimal where
  digits : Nat
  exponent : Int
  deriving Repr, DecidableEq

/-- The order of `a * 10 ^ i` and `n * 2 ^ j`. -/
def compareScaled (a : Nat) (i : Int) (n : Nat) (j : Int) : Ordering :=
  compare (a * tenTo i.toNat * twoTo (-j).toNat) (n * twoTo j.toNat * tenTo (-i).toNat)

/-- Whether a decimal lies among the reals that round to the value. -/
def Rounded.contains (x : Rounded) (d : Decimal) : Bool :=
  -- The bounds are counted in quarters of the last binary digit.
  let low := if x.narrowBelow then 4 * x.m - 1 else 4 * x.m - 2
  let high := 4 * x.m + 2
  let closed := x.m % 2 == 0
  let atLow := compareScaled d.digits d.exponent low (x.q - 2)
  let atHigh := compareScaled d.digits d.exponent high (x.q - 2)
  (atLow == .gt || (closed && atLow == .eq)) && (atHigh == .lt || (closed && atHigh == .eq))

/-! ## §2. The search. -/

/-- The neighbours of the value on the grid of multiples of `10 ^ exponent`: the one below, and
whether the one above is nearer (`gt`), farther (`lt`) or equally near (`eq`). -/
def Rounded.below (x : Rounded) (exponent : Int) : Nat × Ordering :=
  let numerator := x.m * twoTo x.q.toNat * tenTo (-exponent).toNat
  let denominator := twoTo (-x.q).toNat * tenTo exponent.toNat
  let quotient := numerator / denominator
  (quotient, compare (2 * numerator) ((2 * quotient + 1) * denominator))

/-- The nearest decimal of the interval on the grid of multiples of `10 ^ exponent`. -/
def Rounded.onGrid (x : Rounded) (exponent : Int) : Option Decimal :=
  let (low, side) := x.below exponent
  let lower : Decimal := ⟨low, exponent⟩
  let upper : Decimal := ⟨low + 1, exponent⟩
  match x.contains lower, x.contains upper with
  | true, true =>
      some (match side with
        | .lt => lower
        | .gt => upper
        | .eq => if low % 2 == 0 then lower else upper)
  | true, false => some lower
  | false, true => some upper
  | false, false => none

/-- The least power of ten above the value, starting from `guess` and going up at most
`steps` times. -/
def Rounded.scaleFrom (x : Rounded) : Nat → Int → Int
  | 0, guess => guess
  | steps + 1, guess =>
      if compareScaled 1 guess x.m x.q == .gt then guess else x.scaleFrom steps (guess + 1)

/-- The number of digits before the point, negative if zeros follow it. -/
def Rounded.scale (x : Rounded) : Int :=
  x.scaleFrom 8 (((Nat.log2 x.m : Int) + x.q) * 1233 / 4096 - 2)

/-- Without trailing zeros, of which at most `steps` are dropped. -/
def Decimal.trim : Nat → Decimal → Decimal
  | 0, d => d
  | steps + 1, d =>
      if d.digits ≠ 0 ∧ d.digits % 10 = 0 then trim steps ⟨d.digits / 10, d.exponent + 1⟩ else d

/-- The shortest decimal of a value other than zero. -/
def Rounded.shortest (x : Rounded) : Decimal :=
  let scale := x.scale
  -- The first grid with a hit has the fewest digits.
  match (List.range 18).findSome? fun n : Nat => x.onGrid (scale - (n + 1)) with
  | some d => d.trim 20
  | none => ⟨(x.below (scale - 40)).1, scale - 40⟩

/-- The multiple of `10 ^ exponent` nearest to the value, a half going to the even one. -/
def Rounded.roundTo (x : Rounded) (exponent : Int) : Decimal :=
  match x.below exponent with
  | (low, .lt) => ⟨low, exponent⟩
  | (low, .gt) => ⟨low + 1, exponent⟩
  | (low, .eq) => ⟨low + low % 2, exponent⟩

/-! ## §3. Layout. -/

/-- The digits of a decimal. -/
def Decimal.text (d : Decimal) : List Char := (toString d.digits).toList

/-- The number of digits before the point, negative if zeros follow it. -/
def Decimal.point (d : Decimal) : Int := d.text.length + d.exponent

/-- The digits before and after the point of a decimal that is written positionally. -/
def Decimal.parts (d : Decimal) : List Char × List Char :=
  let digits := d.text
  let point := d.point
  if point ≤ 0 then (['0'], List.replicate (-point).toNat '0' ++ digits)
  else
    (digits.take point.toNat ++ List.replicate (point - digits.length).toNat '0',
      digits.drop point.toNat)

/-- An exponent with its sign and at least so many digits. -/
def exponentText (width : Nat) (exponent : Int) : String :=
  let magnitude := toString exponent.natAbs
  (if exponent < 0 then "-" else "+")
    ++ String.ofList (List.replicate (width - magnitude.length) '0') ++ magnitude

/-- A positive decimal with a point, and digits on both sides of it. -/
def Decimal.positional (d : Decimal) : String :=
  let (whole, part) := d.parts
  String.ofList whole ++ "." ++ (if part.isEmpty then "0" else String.ofList part)

/-- A positive decimal with an exponent; a single digit has no point. -/
def Decimal.scientific (d : Decimal) : String :=
  let mantissa :=
    match d.text with
    | first :: second :: rest => String.ofList (first :: '.' :: second :: rest)
    | short => String.ofList short
  mantissa ++ "e" ++ exponentText 2 (d.point - 1)

/-- The power of ten from which on the numbers of a format are written with an exponent. -/
def BinaryFormat.exponentFrom (format : BinaryFormat) : Nat :=
  if format.digits ≤ 11 then 3 else if format.digits ≤ 24 then 6 else 16

/-- Whether a value is written positionally. -/
def Rounded.isPositional (x : Rounded) (exponentFrom : Nat) : Bool :=
  compareScaled 1 (-4) x.m x.q != .gt && compareScaled 1 exponentFrom x.m x.q == .gt

/-- The value `m * 2 ^ q` among the values of a format. -/
def BinaryFormat.rounded (format : BinaryFormat) (m : Nat) (q : Int) : Rounded :=
  match format.round m q with
  | some (m, q) => ⟨m, q, m == twoTo (format.digits - 1) && q > format.least⟩
  | none => ⟨m, q, false⟩

/-- The text of the number with these binary64 bits, which is one of a format. -/
def textIn (format : BinaryFormat) (bits : UInt64) : String :=
  match Binary.ofBits bits with
  | .nan => "nan"
  | .infinite negative => if negative then "-inf" else "inf"
  | .finite negative m q =>
      let sign := if negative then "-" else ""
      if m == 0 then sign ++ "0.0"
      else
        let x := format.rounded m q
        sign ++ (if x.isPositional format.exponentFrom then x.shortest.positional
          else x.shortest.scientific)

/-- The text of the binary64 number with these bits. -/
def text (bits : UInt64) : String := textIn .double bits

end Cursors.Number
