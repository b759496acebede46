/-
  Cursors.Workspace.Value
  ───────────────────────
  **VALUES.**

  A value is either plain, and then all there is to know about it is its
  content, or an object of the store, and then it is the object's number.
  Besides the usual plain values there are scalars, the elements of grids,
  which remember the kind of the grid that they came from.  Floats and
  scalars carry a mark, since what is not a number is equal only to itself.
-/
import Cursors.Place
import Cursors.Workspace.Plain

namespace Cursors.Workspace

/-! ## §1. Values. -/

/-- The number of an object in the store. -/
abbrev Id := Nat

/-- A value. -/
inductive Value where
  | null
  | bool (b : Bool)
  | int (n : Int)
  /-- A float; the mark tells it from others with the same bits. -/
  | float (bits : UInt64) (mark : Nat)
  | text (s : String)
  | scalar (kind : ElementKind) (content : Plain) (mark : Nat)
  | object (id : Id)
  deriving DecidableEq, Repr

instance : Inhabited Value := ⟨.null⟩

/-- The value with this content. -/
def Plain.toValue (mark : Nat) : Plain → Value
  | .bool b => .bool b
  | .int n => .int n
  | .float bits => .float bits mark

/-- A position as a value. -/
def Value.ofPlace : Place → Value
  | .plain n => .int n
  | .truth b => .bool b
  | .fixed width n => .scalar (.integer width) (.int n) 0

namespace Value

/-- The content of a number. -/
def plain? : Value → Option Plain
  | .bool b => some (.bool b)
  | .int n => some (.int n)
  | .float bits _ => some (.float bits)
  | .scalar _ content _ => some content
  | _ => none

/-- The number that a value is, as it takes part in operations with elements of grids. -/
def operand? : Value → Option Operand
  | .bool b => some ⟨some .bool, .bool b⟩
  | .int n => some ⟨none, .int n⟩
  | .float bits _ => some ⟨none, .float bits⟩
  | .scalar kind content _ => some ⟨some kind, content⟩
  | _ => none

/-- The integer that a value can serve as: integers, truth values and scalars of integer kind. -/
def integer? : Value → Option Int
  | .int n => some n
  | .bool b => some (if b then 1 else 0)
  | .scalar (.integer _) (.int n) _ => some n
  | _ => none

/-- An integer written down as such. -/
def literal? : Value → Option Int
  | .int n => some n
  | _ => none

/-- The position that a value stands for, if it is an integer and not negative. -/
def place? : Value → Option Place
  | .int n => if 0 ≤ n then some (.plain n.toNat) else none
  | .bool b => some (.truth b)
  | .scalar (.integer width) (.int n) _ => if 0 ≤ n then some (.fixed width n) else none
  | _ => none

end Value

/-! ## §2. Packed elements. -/

/-- What an element of a packed array becomes when a value is stored in it. -/
def PackedKind.store (kind : PackedKind) (v : Value) : Except Failure Plain :=
  let fit (low high : Int) : Except Failure Plain :=
    match v.integer? with
    | none => .error (.refused .type)
    | some n => if low ≤ n ∧ n ≤ high then .ok (.int n) else .error (.refused .overflow)
  match kind with
  | .int8 => fit (-128) 127
  | .int32 => fit (-2147483648) 2147483647
  | .double =>
      match v.plain? with
      | none => .error (.refused .type)
      | some content =>
          match content.floatBits? with
          | some bits => .ok (.float bits)
          | none => .error (.refused .overflow)

/-- The byte that a value stands for. -/
def byteOf (v : Value) : Except Failure UInt8 :=
  match v.integer? with
  | none => .error (.refused .type)
  | some n => if 0 ≤ n ∧ n ≤ 255 then .ok (UInt8.ofNat n.toNat) else .error (.refused .value)

/-- The letter of a kind of packed elements. -/
def PackedKind.letter : PackedKind → String
  | .int8 => "b"
  | .int32 => "i"
  | .double => "d"

/-- The kind of element of a grid that corresponds to a kind of packed elements. -/
def PackedKind.element : PackedKind → ElementKind
  | .int8 => .integer (.signed 8)
  | .int32 => .integer (.signed 32)
  | .double => .float 64

end Cursors.Workspace
