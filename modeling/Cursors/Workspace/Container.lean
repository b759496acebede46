/-
  Cursors.Workspace.Container
  ───────────────────────────
  **CONTAINERS.**

  Sizes, truth, positions and subscripts of the containers of a workspace.
  A container refuses what its kind does not provide.  The members of
  scripted classes are not served here.
-/
import Cursors.Workspace.Residue

namespace Cursors.Workspace

/-! ## §1. Size and truth. -/

/-- The length that a value gives, if it gives one; only scripted ones can be negative. -/
def Store.length? (s : Store) (v : Value) : Option Int :=
  match v with
  | .text t => some t.length
  | _ =>
      match s.cell? v with
      | some (.list items) | some (.tuple items) | some (.deque items _) => some items.length
      | some (.set _ t) => some t.size
      | some (.dict table) => some table.size
      | some (.bytes _ data) => some data.length
      | some (.range a b c) => some (rangeLength a b c)
      | some (.packed _ items) => some items.length
      | some (.grid _ (n :: _) _ _) => some n
      | some (.custom record _) => record.spec.length
      | _ => none

/-- The width of sizes and positions. -/
def sizeWidth : Number.Width := .signed 64

/-- The size of a value. -/
def sizeOf (v : Value) : Act Store Nat := do
  match ← Act.reading (·.length? v) with
  | some n =>
      if n < 0 then Act.fail (.refused .value)
      else if sizeWidth.holds n then return n.toNat
      else Act.fail (.refused .overflow)
  | none => Act.fail (.refused .type)

/-- The elements of a grid. -/
def Store.gridItems (s : Store) (shape : List Nat) (elements : Id) (offset : Nat) : List Plain :=
  match s.cells[elements]? with
  | some (.elements items) => (items.drop offset).take (volume shape)
  | _ => []

/-- The grid that a value is. -/
def Store.grid? (s : Store) (v : Value) : Option Grid :=
  match s.cell? v with
  | some (.grid kind shape elements offset) =>
      some ⟨some kind, shape, s.gridItems shape elements offset⟩
  | _ => none

/-- Whether a value counts as true; a grid does only if it has one element. -/
def truthOf (v : Value) : Act Store Bool := do
  match v.plain? with
  | some p => return p.isTrue
  | none =>
      match v with
      | .null => return false
      | .text t => return !t.isEmpty
      | _ =>
          let s ← Act.reading id
          match s.grid? v, s.cell? v with
          -- Of several elements none speaks for the others.
          | some g, _ => Act.ofExcept (soleAnswer (g.items.map Plain.isTrue))
          | none, some (.range a b c) => return rangeLength a b c ≠ 0
          | _, _ => if (s.length? v).isSome then return (← sizeOf v) ≠ 0 else return true

/-! ## §2. Positions. -/

/-- A value, or the scalar that it stands for if it is a grid without axes. -/
def scalarOf (v : Value) : Act Store Value := Act.reading fun s =>
  match s.grid? v with
  | some ⟨some kind, [], [p]⟩ => .scalar kind p 0
  | _ => v

/-- The position that a value stands for among `n` elements. -/
def positionOf (n : Nat) (index : Value) : Act Store Nat := do
  match (← scalarOf index).integer? with
  | none => Act.fail (.refused .type)
  | some i =>
      match Place.index? n i with
      | some i => pure i
      | none => Act.fail (.refused .index)

/-- The element of a list at a position that a value stands for. -/
def elementOf {α : Type} (items : List α) (index : Value) : Act Store α := do
  match items[← positionOf items.length index]? with
  | some x => pure x
  | none => Act.fail (.refused .index)

/-! ## §3. Subscripts. -/

/-- The value under a key. -/
def Store.valueUnder? (s : Store) (table : Table) (key : Value) : Option Value :=
  table.find? fun k => s.same k key

/-- A new grid of elements of its own. -/
def newElements (kind : ElementKind) (shape : List Nat) (items : List Plain) :
    Act Store Value := do
  match ← Store.alloc (.elements items) with
  | .object id => Store.alloc (.grid kind shape id 0)
  | _ => Act.fail (.refused .type)

/-- A view of a grid along its first axis. -/
def gridAt (kind : ElementKind) (shape : List Nat) (elements : Id) (offset : Nat)
    (index : Value) : Act Store Value := do
  match shape with
  | [] => Act.fail (.refused .index)
  | n :: inner => do
      let i ← positionOf n index
      if inner.isEmpty then
        match (← Act.reading (·.gridItems [1] elements (offset + i)))[0]? with
        | some p => Store.scalar kind p
        | none => Act.fail (.refused .index)
      else Store.alloc (.grid kind inner elements (offset + i * volume inner))

/-- The element of a grid under a subscript.  A truth value is no position: it selects the
whole grid or nothing of it, along an axis of its own. -/
def gridElement (kind : ElementKind) (shape : List Nat) (elements : Id) (offset : Nat)
    (index : Value) : Act Store Value := do
  match (← scalarOf index).plain? with
  | some (.bool chosen) => do
      let items ← Act.reading (·.gridItems shape elements offset)
      newElements kind (chosen.toNat :: shape) (if chosen then items else [])
  | _ => gridAt kind shape elements offset index

/-- The element of a container under a subscript. -/
def elementAt (v index : Value) : Act Store Value := do
  match v with
  | .text t => return .text (String.singleton (← elementOf t.toList index))
  | _ =>
      let s ← Act.reading id
      match s.cell? v with
      | some (.list items) | some (.tuple items) | some (.deque items _) =>
          elementOf items index
      | some (.bytes _ data) => return .int (← elementOf data index).toNat
      | some (.packed _ items) => do Store.number (← elementOf items index)
      | some (.range a b c) =>
          let i ← positionOf (rangeLength a b c) index
          return .int (a + c * i)
      | some (.dict table) => do
          needKey index
          match s.valueUnder? table index with
          | some x => pure x
          | none => Act.fail (.refused .key)
      | some (.grid kind shape elements offset) => gridElement kind shape elements offset index
      | _ => Act.fail (.refused .type)

end Cursors.Workspace
