/-
  Cursors.Text.Quoted
  ───────────────────
  **TEXT BETWEEN QUOTES.**

  How a text or a row of bytes is shown inside a message.  The quote is the
  single one, unless the text holds single quotes and no double quote.  The
  backslash and the chosen quote are escaped by a backslash, the line ends
  and the tab have letters of their own, and every other character that does
  not show as itself is written by its code in hexadecimal digits.
-/
import Cursors.Text.Printable

namespace Cursors.Text

/-! ## §1. Hexadecimal codes. -/

/-- The lower-case digit of a value below sixteen. -/
def hexDigit (n : Nat) : Char :=
  if n < 10 then Char.ofNat ('0'.toNat + n) else Char.ofNat ('a'.toNat + (n - 10))

/-- The last `width` hexadecimal digits of `n`, most significant first. -/
def hexDigits : Nat → Nat → List Char
  | 0, _ => []
  | width + 1, n => hexDigits width (n / 16) ++ [hexDigit (n % 16)]

/-! ## §2. Escapes. -/

/-- The quote for a text: double quotes only where they save escaping single ones. -/
def quoteFor (text : List Char) : Char :=
  if text.contains '\'' && !text.contains '"' then '"' else '\''

/-- A character inside `quote`, where `shows` tells which characters need no code. -/
def escapeChar (shows : Char → Bool) (quote c : Char) : List Char :=
  if c == quote || c == '\\' then ['\\', c]
  else if c == '\n' then ['\\', 'n']
  else if c == '\r' then ['\\', 'r']
  else if c == '\t' then ['\\', 't']
  else if shows c then [c]
  else if c.toNat < 0x100 then '\\' :: 'x' :: hexDigits 2 c.toNat
  else if c.toNat < 0x10000 then '\\' :: 'u' :: hexDigits 4 c.toNat
  else '\\' :: 'U' :: hexDigits 8 c.toNat

/-- A text between its quotes, where `shows` tells which characters need no code. -/
def quotedWith (shows : Char → Bool) (text : List Char) : List Char :=
  let quote := quoteFor text
  quote :: text.flatMap (escapeChar shows quote) ++ [quote]

/-- A text between quotes. -/
def quoted (text : String) : String :=
  String.ofList (quotedWith isPrintable text.toList)

/-- A byte that shows as itself: the printable part of the seven-bit codes. -/
def isPlainByte (c : Char) : Bool := 0x20 ≤ c.toNat && c.toNat < 0x7f

/-- Bytes as characters. -/
def byteChars (bytes : List UInt8) : List Char := bytes.map fun b => Char.ofNat b.toNat

/-- A row of bytes between quotes, marked by a leading `b`. -/
def quotedBytes (bytes : List UInt8) : String :=
  String.ofList ('b' :: quotedWith isPlainByte (byteChars bytes))

/-- A changeable row of bytes between quotes, in which single quotes are escaped even between
double ones. -/
def quotedChangeable (bytes : List UInt8) : String :=
  let text := byteChars bytes
  let quote := quoteFor text
  String.ofList ('b' :: quote :: text.flatMap (fun c =>
    if c == '\'' then ['\\', c] else escapeChar isPlainByte quote c) ++ [quote])

end Cursors.Text
