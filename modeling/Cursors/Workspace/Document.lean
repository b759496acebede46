/-
  Cursors.Workspace.Document
  ──────────────────────────
  **DOCUMENTS: VALUES AS ANSWERS SHOW THEM.**

  A document is a tree that shares nothing with the workspace it was taken
  from.  Truth values, integers, texts and lists stand for themselves;
  everything else is a body under a tag.  The text of a document is its
  notation in seven-bit characters, by which the elements of unordered
  collections are sorted.
-/
import Cursors.Number.Power
import Cursors.Text.Quoted

namespace Cursors.Workspace

/-! ## §1. The tree. -/

/-- A value as an answer shows it. -/
inductive Document where
  | null
  | bool (b : Bool)
  | int (n : Int)
  | text (s : String)
  | list (items : List Document)
  | tagged (tag : String) (body : Document)
  deriving Repr, BEq, Inhabited

namespace Document

/-- An integer, under a tag if its magnitude needs more than fifty-three bits. -/
def ofInt (n : Int) : Document :=
  if n.natAbs < Number.twoTo 53 then .int n else .tagged "big" (.text (toString n))

/-- A value below the deepest level that is shown. -/
def tooDeep : Document := .tagged "deep" (.bool true)

/-! ## §2. Notation. -/

/-- A code of sixteen bits, by its hexadecimal digits. -/
def unitEscape (n : Nat) : List Char := '\\' :: 'u' :: Text.hexDigits 4 n

/-- A character inside the quotes of the notation. -/
def escape (c : Char) : List Char :=
  if c == '"' || c == '\\' then ['\\', c]
  else if c == '\n' then ['\\', 'n']
  else if c == '\r' then ['\\', 'r']
  else if c == '\t' then ['\\', 't']
  else if c == '\x08' then ['\\', 'b']
  else if c == '\x0c' then ['\\', 'f']
  else if 0x20 ≤ c.toNat && c.toNat < 0x7f then [c]
  else if c.toNat < 0x10000 then unitEscape c.toNat
  else
    let n := c.toNat - 0x10000
    unitEscape (0xd800 + n / 0x400) ++ unitEscape (0xdc00 + n % 0x400)

/-- A text in the notation. -/
def quote (s : String) : String := String.ofList ('"' :: s.toList.flatMap escape ++ ['"'])

mutual

/-- The notation of a document. -/
def written : Document → String
  | .null => "null"
  | .bool true => "true"
  | .bool false => "false"
  | .int n => toString n
  | .text s => quote s
  | .list items => "[" ++ writtenItems items ++ "]"
  | .tagged tag body => "\x7b" ++ quote tag ++ ": " ++ body.written ++ "\x7d"

/-- The notation of the items of a list. -/
def writtenItems : List Document → String
  | [] => ""
  | [x] => x.written
  | x :: y :: rest => x.written ++ ", " ++ writtenItems (y :: rest)

end

/-- Documents in the order of their notations. -/
def sorted (items : List Document) : List Document :=
  items.mergeSort fun a b => a.written ≤ b.written

end Document

end Cursors.Workspace
