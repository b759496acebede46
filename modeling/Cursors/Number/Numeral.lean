/-
  Cursors.Number.Numeral
  ──────────────────────
  **NUMERALS.**

  Numerals of integers and of floats, in the digits of any script.  Blanks
  may surround a numeral, one sign may precede it, and a single `_` may
  stand between two digits.  What is not a numeral from its first to its
  last character is refused.  Integers are neither read nor written beyond a
  number of digits.
-/
import Cursors.Number.Binary
import Cursors.Text.Blank
import Cursors.Text.DecimalDigit

namespace Cursors.Number

/-! ## §1. Digits. -/

/-- The value of a decimal digit. -/
def digitValue? (c : Char) : Option Nat :=
  (Text.decimalDigitRanges.find? fun (low, high) => low ≤ c.toNat && c.toNat ≤ high).map
    fun (low, _) => (c.toNat - low) % 10

/-- The digits that a text goes on with after a digit, and the rest. -/
def moreDigits : List Char → List Nat × List Char
  | '_' :: c :: rest =>
      match digitValue? c with
      | some d => let (ds, left) := moreDigits rest; (d :: ds, left)
      | none => ([], '_' :: c :: rest)
  | c :: rest =>
      match digitValue? c with
      | some d => let (ds, left) := moreDigits rest; (d :: ds, left)
      | none => ([], c :: rest)
  | [] => ([], [])

/-- The digits that a text starts with, and the rest. -/
def digits : List Char → List Nat × List Char
  | '_' :: rest => ([], '_' :: rest)
  | text => moreDigits text

/-- The number that digits stand for. -/
def ofDigits (ds : List Nat) : Nat := ds.foldl (fun n d => 10 * n + d) 0

/-- Whether a sign is negative, and the text after it. -/
def sign : List Char → Bool × List Char
  | '-' :: rest => (true, rest)
  | '+' :: rest => (false, rest)
  | text => (false, text)

/-- A blank that may surround a numeral. -/
def isMargin (c : Char) : Bool :=
  Text.isBlank c && (c.toNat ≥ 0x80 || c == ' ' || (9 ≤ c.toNat && c.toNat ≤ 13))

/-- A text without its margins. -/
def withoutMargins (text : List Char) : List Char :=
  ((text.dropWhile isMargin).reverse.dropWhile isMargin).reverse

/-! ## §2. Numerals. -/

/-- The longest numeral of an integer, in digits. -/
def longestInteger : Nat := 4300

/-- The integer that a numeral stands for. -/
def readInteger? (text : List Char) : Option Int :=
  let (negative, body) := sign (withoutMargins text)
  match digits body with
  | ([], _) => none
  | (ds, []) =>
      if ds.length > longestInteger then none
      else some (if negative then -(ofDigits ds : Int) else ofDigits ds)
  | _ => none

/-- Whether the numeral of an integer is not too long. -/
def isWritable (n : Int) : Bool := n.natAbs < tenTo longestInteger

/-- The numeral of an integer, unless it is too long. -/
def writeInteger? (n : Int) : Option String := if isWritable n then some (toString n) else none

/-- The power of ten at the end of a numeral of a float; without a mark it is zero. -/
def readExponent? : List Char → Option Int
  | [] => some 0
  | c :: rest =>
      if c == 'e' || c == 'E' then
        let (negative, body) := sign rest
        match digits body with
        | ([], _) => none
        | (ds, []) => some (if negative then -(ofDigits ds : Int) else ofDigits ds)
        | _ => none
      else none

/-- The bits of the float nearest to `± n * 10 ^ exponent`, where `n` has so many digits. -/
def decimalBits (negative : Bool) (n count : Nat) (exponent : Int) : UInt64 :=
  let size :=
    if n = 0 then (0 : Float)
    -- Far outside of the range the power itself is not needed.
    else if exponent + count > 400 then Float.ofBits (Binary.infinityBits false)
    else if exponent + count < -400 then 0
    else Float.ofScientific n (exponent < 0) exponent.natAbs
  (if negative then -size else size).toBits

/-- The bits of the float that a numeral stands for. -/
def readFloat? (text : List Char) : Option UInt64 :=
  let (negative, body) := sign (withoutMargins text)
  let word := String.ofList (body.map Char.toLower)
  if word == "nan" then some Binary.nanBits
  else if word == "inf" || word == "infinity" then some (Binary.infinityBits negative)
  else
    let (whole, rest) := digits body
    let (part, rest) := match rest with
      | '.' :: rest => digits rest
      | rest => ([], rest)
    if whole.isEmpty && part.isEmpty then none
    else (readExponent? rest).map fun exponent =>
      decimalBits negative (ofDigits (whole ++ part)) (whole ++ part).length
        (exponent - part.length)

end Cursors.Number
