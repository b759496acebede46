/-
  Cursors.Workspace.Grid
  ──────────────────────
  **GRIDS OF NUMBERS.**

  A grid has a shape, which is the list of its extents, and its elements
  row by row.  Two grids meet element by element: their shapes are aligned
  at the last axis, and an axis of extent one, or one that is missing, is
  repeated as often as the other grid needs.
-/
import Cursors.Workspace.Plain

namespace Cursors.Workspace

/-! ## §1. Shapes. -/

/-- The number of elements of a shape. -/
def volume (shape : List Nat) : Nat := shape.foldl (· * ·) 1

/-- The common extent of two axes. -/
def commonExtent (m n : Nat) : Option Nat :=
  if m = n ∨ n = 1 then some m else if m = 1 then some n else none

/-- The common shape of two shapes that are given from the last axis on. -/
def commonReversed : List Nat → List Nat → Option (List Nat)
  | [], shape | shape, [] => some shape
  | m :: ms, n :: ns => do
      let extent ← commonExtent m n
      return extent :: (← commonReversed ms ns)

/-- The common shape of two shapes. -/
def commonShape (a b : List Nat) : Option (List Nat) :=
  (commonReversed a.reverse b.reverse).map List.reverse

/-- A list cut into `count` rows of the same size. -/
def rows {α : Type} (size : Nat) : Nat → List α → List (List α)
  | 0, _ => []
  | count + 1, items => items.take size :: rows size count (items.drop size)

/-- The elements of a shape repeated to fill another one with as many axes. -/
def repeatTo {α : Type} : List Nat → List Nat → List α → List α
  | extent :: target, n :: shape, items =>
      let filled := ((rows (volume shape) n items).map (repeatTo target shape)).flatten
      if n = extent then filled else (List.replicate extent filled).flatten
  | _, _, items => items

/-- The elements of a shape repeated to fill another one; missing axes count as one. -/
def stretch {α : Type} (target shape : List Nat) (items : List α) : List α :=
  repeatTo target (List.replicate (target.length - shape.length) 1 ++ shape) items

/-- The pairs in which the elements of two shapes meet. -/
def meetings {α β : Type} (a : List Nat) (xs : List α) (b : List Nat) (ys : List β) :
    Except Failure (List Nat × List (α × β)) :=
  match commonShape a b with
  | some shape => .ok (shape, (stretch shape a xs).zip (stretch shape b ys))
  -- Extents that differ and are not one cannot be aligned.
  | none => .error (.refused .value)

/-- What a row of answers says as a whole: only a single one speaks. -/
def soleAnswer : List Bool → Except Failure Bool
  | [b] => .ok b
  | _ => .error (.refused .value)

/-! ## §2. Numbers. -/

/-- A grid of numbers of one kind; plain numbers alone have none. -/
structure Grid where
  kind : Option ElementKind
  shape : List Nat
  items : List Plain
  deriving Repr, DecidableEq

namespace Grid

/-- The elements as they take part in operations. -/
def operands (g : Grid) : List Operand := g.items.map fun p => ⟨g.kind, p⟩

/-- Whether `test` holds of the order of two grids, element by element, as a whole. -/
def compare (a b : Grid) (test : Option Ordering → Bool) : Except Failure Bool := do
  let (_, pairs) ← meetings a.shape a.operands b.shape b.operands
  soleAnswer (← pairs.mapM fun (x, y) => do return test (← x.compare y))

/-- Two grids combined element by element. -/
def combine (op : Arithmetic) (a b : Grid) : Except Failure Grid := do
  let (shape, pairs) ← meetings a.shape a.operands b.shape b.operands
  let items ← pairs.mapM fun (x, y) => Operand.combine op x y
  return ⟨(items.head?.bind (·.kind)).or (a.kind.or b.kind), shape, items.map (·.content)⟩

end Grid

end Cursors.Workspace
