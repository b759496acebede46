/-
  Cursors.Workspace.Plain
  ───────────────────────
  **NUMBERS OF A KIND.**

  The elements of grids have a kind: truth values, integers of a width, or
  floats of a format.  A plain number takes the kind of what it meets; two
  kinds meet in a common one that has room for both, as far as there is
  one.  Integers of all kinds compare exactly; what meets a float is
  rounded to the common kind first.
-/
import Cursors.Number.Binary
import Cursors.Workspace.Expr

namespace Cursors.Workspace

open Number (Width)

/-! ## §1. Contents. -/

/-- The content of a number. -/
inductive Plain where
  | bool (b : Bool)
  | int (n : Int)
  | float (bits : UInt64)
  deriving DecidableEq, Repr, Inhabited

namespace Plain

/-- The magnitude of a content; truth values count as zero and one. -/
def magnitude : Plain → Number.Binary.Magnitude
  | .bool b => .ofInt (if b then 1 else 0)
  | .int n => .ofInt n
  | .float bits => (Number.Binary.ofBits bits).magnitude

/-- Whether a content counts as true. -/
def isTrue : Plain → Bool
  | .bool b => b
  | .int n => n ≠ 0
  | .float bits => bits ≠ 0 && bits ≠ 0x8000000000000000

/-- The integer that a content is. -/
def integer? : Plain → Option Int
  | .bool b => some (if b then 1 else 0)
  | .int n => some n
  | .float _ => none

/-- The binary64 bits of a number, if it is not too large. -/
def floatBits? : Plain → Option UInt64
  | .bool b => some (if b then 0x3ff0000000000000 else 0)
  | .int n => Number.BinaryFormat.double.ofInt? n
  | .float bits => some bits

end Plain

/-- The integer part of a float, dropping what follows the point. -/
def truncate (bits : UInt64) : Option Int :=
  match Number.Binary.ofBits bits with
  | .finite negative m q =>
      let size : Nat := m * Number.twoTo q.toNat / Number.twoTo (-q).toNat
      some (if negative then -size else size)
  | _ => none

/-! ## §2. Kinds. -/

namespace ElementKind

/-- The name of a kind of elements. -/
def name : ElementKind → String
  | .bool => "bool"
  | .integer width => width.name
  | .float bits => "float" ++ toString bits

/-- The kinds that have names. -/
def all : List ElementKind :=
  .bool :: [8, 16, 32, 64].map (fun n => .integer (.signed n))
    ++ [8, 16, 32, 64].map (fun n => .integer (.unsigned n)) ++ [16, 32, 64].map .float

/-- The kind of this name. -/
def ofName? (name : String) : Option ElementKind := all.find? (·.name == name)

/-- Whether the elements are integers with a sign. -/
def isSigned : ElementKind → Bool
  | .integer (.signed _) => true
  | _ => false

/-- Whether the elements are integers. -/
def isIntegral : ElementKind → Bool
  | .integer _ => true
  | _ => false

/-- The format of a floating kind. -/
def format : ElementKind → Number.BinaryFormat
  | .float 16 => .half
  | .float 32 => .single
  | _ => .double

/-- The bits of the floats that have room for integers of a width, as far as any have. -/
def floatFor (width : Width) : Nat :=
  if width.bits ≤ 8 then 16 else if width.bits ≤ 16 then 32 else 64

/-- The common kind of two kinds. -/
def join : ElementKind → ElementKind → ElementKind
  | .bool, k | k, .bool => k
  | .float a, .float b => .float (max a b)
  | .float a, .integer w | .integer w, .float a => .float (max a (floatFor w))
  | .integer (.signed a), .integer (.signed b) => .integer (.signed (max a b))
  | .integer (.unsigned a), .integer (.unsigned b) => .integer (.unsigned (max a b))
  | .integer (.signed a), .integer (.unsigned b)
  | .integer (.unsigned b), .integer (.signed a) =>
      -- A sign needs a further bit; beyond sixty-four there are only floats.
      if b < a then .integer (.signed a)
      else if b < 64 then .integer (.signed (2 * b))
      else .float 64

end ElementKind

/-! ## §3. Converting. -/

/-- What becomes of a float that is made an integer of a width: the integer part, as far as it
fits the thirty-two or sixty-four bits in which the conversion is done, wrapped around.  What
lies above all integers without a sign of sixty-four bits becomes zero. -/
def convertFloat (width : Width) (bits : UInt64) : Int :=
  let through : Width :=
    if width.bits < 32 || width = .signed 32 then .signed 32 else .signed 64
  let outside (above : Bool) : Int :=
    if above && width = .unsigned 64 then 0 else width.wrap through.least
  match truncate bits with
  | none => outside (Number.Binary.ofBits bits == .infinite false)
  | some n => if through.holds n || width.holds n then width.wrap n else outside (0 < n)

/-- What becomes of a number of some kind that is made one of another kind. -/
def ElementKind.convert (kind : ElementKind) (content : Plain) : Plain :=
  match kind, content with
  | .bool, p => .bool p.isTrue
  | .float _, p => .float (kind.format.narrow (p.floatBits?.getD Number.Binary.nanBits))
  | .integer width, .float bits => .int (convertFloat width bits)
  | .integer width, p => .int (width.wrap (p.integer?.getD 0))

/-- What becomes of a plain number that is made one of a kind: it must fit. -/
def ElementKind.accept (kind : ElementKind) (content : Plain) : Except Failure Plain :=
  match kind with
  | .bool => .ok (.bool content.isTrue)
  | .float _ =>
      match content.floatBits? with
      | some bits => .ok (.float (kind.format.narrow bits))
      | none => .error (.refused .overflow)
  | .integer width =>
      let fit (n : Int) : Except Failure Plain :=
        if width.holds n then .ok (.int n) else .error (.refused .overflow)
      match content with
      | .bool b => fit (if b then 1 else 0)
      | .int n => fit n
      | .float bits =>
          match truncate bits, Number.Binary.ofBits bits with
          | some n, _ => fit n
          | none, .nan => .error (.refused .value)
          | none, _ => .error (.refused .overflow)

/-! ## §4. Meeting. -/

/-- A number that takes part in an operation; plain integers and floats have no kind of their
own. -/
structure Operand where
  kind : Option ElementKind
  content : Plain
  deriving Repr, DecidableEq

/-- What can be done with two numbers. -/
inductive Arithmetic where
  | plus
  | minus
  deriving DecidableEq, Repr

namespace Arithmetic

/-- The result on integers. -/
def ofInts : Arithmetic → Int → Int → Int
  | .plus, m, n => m + n
  | .minus, m, n => m - n

/-- The bits of the result on floats of a format. -/
def ofFloats (op : Arithmetic) (format : Number.BinaryFormat) (x y : UInt64) : UInt64 :=
  let x := Float.ofBits x
  let y := Float.ofBits y
  format.narrow (match op with
    | .plus => x + y
    | .minus => x - y).toBits

end Arithmetic

namespace Operand

/-- Whether a number is a float. -/
def isFloat (a : Operand) : Bool :=
  match a.kind, a.content with
  | some (.float _), _ | none, .float _ => true
  | _, _ => false

/-- The kind in which a number of kind `k` meets another one. -/
def meetingWith (k : ElementKind) (b : Operand) : ElementKind :=
  match b.kind, b.content, k with
  | some l, _, _ => k.join l
  | none, .float _, .float _ => k
  | none, .float _, _ => .float 64
  | none, .int _, .bool => .integer (.signed 64)
  | none, _, _ => k

/-- The kind in which two numbers meet, unless both are plain. -/
def meeting (a b : Operand) : Option ElementKind :=
  match a.kind, b.kind with
  | some k, _ => some (meetingWith k b)
  | none, some l => some (meetingWith l a)
  | none, none => none

/-- A number brought to a kind: a plain one must fit. -/
def bring (kind : ElementKind) (a : Operand) : Except Failure Plain :=
  match a.kind with
  | some _ => .ok (kind.convert a.content)
  | none => kind.accept a.content

/-- Whether a number is a truth value of a grid. -/
def isTruth (a : Operand) : Bool := a.kind == some .bool

/-- The order of two numbers, where there is one.  Integers of all sizes have one with each
other, but not with truth values, which first take the kind of plain integers. -/
def compare (a b : Operand) : Except Failure (Option Ordering) :=
  match a.meeting b with
  | some kind =>
      if a.isFloat || b.isFloat || a.isTruth || b.isTruth then do
        let x ← a.bring kind
        let y ← b.bring kind
        return x.magnitude.compare y.magnitude
      else return a.content.magnitude.compare b.content.magnitude
  | none => return a.content.magnitude.compare b.content.magnitude

/-- Two numbers, added or the second taken from the first, and the kind of the result. -/
def combine (op : Arithmetic) (a b : Operand) : Except Failure Operand :=
  match a.meeting b with
  | none =>
      match a.content.integer?, b.content.integer? with
      | some m, some n => .ok ⟨none, .int (op.ofInts m n)⟩
      | _, _ =>
          match a.content.floatBits?, b.content.floatBits? with
          | some x, some y => .ok ⟨none, .float (op.ofFloats .double x y)⟩
          | _, _ => .error (.refused .overflow)
  | some kind => do
      match ← a.bring kind, ← b.bring kind, kind with
      | .int m, .int n, .integer width => return ⟨some kind, .int (width.wrap (op.ofInts m n))⟩
      | .float x, .float y, _ => return ⟨some kind, .float (op.ofFloats kind.format x y)⟩
      | .bool b, .bool c, _ =>
          -- Truth values have a sum, but no difference, of their own kind.
          if op = .plus then return ⟨some kind, .bool (b || c)⟩ else .error (.refused .type)
      | _, _, _ => .error (.refused .type)

end Operand

end Cursors.Workspace
