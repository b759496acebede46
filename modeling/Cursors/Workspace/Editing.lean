/-
  Cursors.Workspace.Editing
  ─────────────────────────
  **EDITING CONTAINERS.**

  Storing, removing and inserting elements, and the operations of containers
  by name.  Constant containers refuse every edit, grids refuse changes of
  their size, typed ones refuse what does not fit.
-/
import Cursors.Number.Numeral
import Cursors.Workspace.Compare

namespace Cursors.Workspace

/-! ## §1. Elements of grids. -/

/-- The characters by which a value can be read as a number: texts, and bytes in memory, of
which only those of seven bits are characters of a numeral. -/
def Store.numeral? (s : Store) (v : Value) : Option (List Char) :=
  let ofBytes (data : List UInt8) : List Char :=
    data.map fun b => if b < 0x80 then Char.ofNat b.toNat else '?'
  match v, s.cell? v with
  | .text t, _ => some t.toList
  | _, some (.bytes _ data) => some (ofBytes data)
  | _, some (.packed kind items) => some (ofBytes (items.flatMap (storedBytes kind.element)))
  | _, _ => none

/-- The number that characters stand for, as an element of a kind. -/
def ElementKind.read (kind : ElementKind) (text : List Char) : Except Failure Plain :=
  let content := match kind with
    | .float _ => (Number.readFloat? text).map Plain.float
    | _ => (Number.readInteger? text).map Plain.int
  match content with
  | some p => kind.accept p
  | none => .error (.refused .value)

/-- Whether a value has elements by position and is no text. -/
def Store.hasPositions (s : Store) (v : Value) : Bool :=
  match s.cell? v with
  | some (.grid ..) => true
  | some (.custom record _) => record.spec.lookup.isSome || record.spec.mapping
  | _ => (s.row? v).isSome

/-- Whether a grid of a kind refuses a value as several elements in the place of one, whatever
is wrong with it; grids of integers say so of grids only. -/
def Store.isSeveral (s : Store) (kind : ElementKind) (v : Value) : Bool :=
  if kind.isIntegral then s.isOfGrid v else s.hasPositions v

/-- The number that a value gives: plain numbers have to fit, texts are read, truth values are
made of anything, and what is missing in floats is not a number. -/
def numberFor (kind : ElementKind) (v : Value) : Act Store Plain := do
  let s ← Act.reading (fun s => s)
  match kind, v with
  | .bool, _ => return .bool (← truthOf v)
  | .float _, .null => return .float Number.Binary.nanBits
  | _, _ =>
      match v.plain?, s.numeral? v with
      | some p, _ => Act.ofExcept (kind.accept p)
      | none, some text => Act.ofExcept (kind.read text)
      | none, none => wrongType

/-- The element of a grid that a value gives.  Single elements of other grids are converted, but
what stands alone has to fit where integers have a sign. -/
def elementFor (kind : ElementKind) (v : Value) : Act Store Plain := do
  let s ← Act.reading (fun s => s)
  match v, s.grid? v with
  | .scalar _ p _, _ =>
      if kind.isSigned then Act.ofExcept (kind.accept p) else return kind.convert p
  | _, some ⟨_, [], [p]⟩ => return kind.convert p
  | _, _ =>
      match ← Act.attempt (fun _ => true) (numberFor kind v) with
      | .ok p => return p
      | .error cause =>
          Act.fail (if s.isSeveral kind v then .refusedFor .value cause else cause)

/-- The element of a grid that a leaf of a row of rows gives; there, no row may be left. -/
def leafFor (kind : ElementKind) : Leaf → Act Store Plain
  | .element _ p => return kind.convert p
  | .value v => do
      if (← Act.reading (·.row? v)).isSome then Act.fail (.refused .value)
      elementFor kind v

/-- Elements of a shape, repeated to fill another one; leading axes of one are dropped. -/
def fillShape (target shape : List Nat) (items : List Plain) : Except Failure (List Plain) :=
  let shape := (shape.take (shape.length - target.length)).dropWhile (· = 1)
    ++ shape.drop (shape.length - target.length)
  if commonShape target shape = some target then .ok (stretch target shape items)
  else .error (.refused .value)

/-- The elements that a value gives to a part of a grid with this shape. -/
def elementsFor (kind : ElementKind) (shape : List Nat) (v : Value) :
    Act Store (List Plain) := do
  if shape.isEmpty then return [← elementFor kind v]
  let s ← Act.reading (fun s => s)
  match s.grid? v with
  -- A grid alone may have more axes, as long as they are of one.
  | some g => Act.ofExcept (fillShape shape g.shape (g.items.map kind.convert))
  | none => do
      let (given, leaves) ← Act.ofExcept (s.layOut shape.length v)
      Act.ofExcept (fillShape shape given (← leaves.mapM (leafFor kind)))

/-- A value as a grid of a kind; an element of a grid alone is converted. -/
def gridFor (kind : ElementKind) (v : Value) : Act Store Grid := do
  match v with
  | .scalar _ p _ => return ⟨some kind, [], [kind.convert p]⟩
  | _ => do
      let s ← Act.reading (fun s => s)
      let (shape, leaves) ← Act.ofExcept (s.layOut deepestRow v)
      return ⟨some kind, shape, ← leaves.mapM (leafFor kind)⟩

/-- Replace the elements of a grid from an offset on. -/
def putElements (elements : Id) (offset : Nat) (stored : List Plain) : Act Store Unit := do
  match ← Act.reading (·.cells[elements]?) with
  | some (.elements items) =>
      Store.put elements (.elements
        (items.take offset ++ stored ++ items.drop (offset + stored.length)))
  | _ => Act.fail (.refused .type)

/-! ## §2. Storing. -/

/-- The dictionary with a value under a key. -/
def Store.withEntry (s : Store) (table : Table) (key x : Value) : Table :=
  table.insert (fun k => s.same k key) key x

/-- A dictionary of entries. -/
def newDict (entries : List (Value × Value)) : Act Store Value := do
  entries.forM fun e => needKey e.1
  let s ← Act.reading (fun s => s)
  Store.alloc (.dict (entries.foldl (fun made e => s.withEntry made e.1 e.2) {}))

/-- The byte that a value becomes in a row of bytes. -/
def byteFor (x : Value) : Act Store UInt8 := do Act.ofExcept (byteOf (← scalarOf x))

/-- The element that a value becomes in a packed array. -/
def packedFor (kind : PackedKind) (x : Value) : Act Store Plain := do
  Act.ofExcept (kind.store (← scalarOf x))

/-- Replace what a subscript selects of a grid: an element along the first axis, all or nothing
by a truth value, and all by a missing one. -/
def storeInGrid (kind : ElementKind) (shape : List Nat) (elements : Id) (offset : Nat)
    (index x : Value) : Act Store Unit := do
  match ← scalarOf index, shape with
  | .null, _ => do putElements elements offset (← elementsFor kind (1 :: shape) x)
  | .bool chosen, _ | .scalar .bool (.bool chosen) _, _ => do
      let g ← gridFor kind x
      let stored ← Act.ofExcept (fillShape (chosen.toNat :: shape) g.shape g.items)
      if chosen then putElements elements offset stored
  | i, n :: inner => do
      if i.integer?.isNone then Act.fail (.refused .index)
      let i ← positionOf n i
      putElements elements (offset + i * volume inner) (← elementsFor kind inner x)
  | _, [] => Act.fail (.refused .index)

/-- Replace the element of a container under a subscript. -/
def storeAt (v index x : Value) : Act Store Unit := do
  let s ← Act.reading id
  match v, s.cell? v with
  | .object id, some (.list items) => do
      let i ← positionOf items.length index
      Store.put id (.list (items.set i x))
  | .object id, some (.deque items changes) => do
      let i ← positionOf items.length index
      Store.put id (.deque (items.set i x) changes)
  | .object id, some (.bytes .changeable data) => do
      match (← scalarOf index).integer? with
      | none => Act.fail (.refused .type)
      | some i => if !sizeWidth.holds i then Act.fail (.refused .index)
      -- The kind of the subscript, the byte and the position are checked in this order.
      let b ← byteFor x
      let i ← positionOf data.length index
      Store.put id (.bytes .changeable (data.set i b))
  | .object id, some (.packed kind items) => do
      let i ← positionOf items.length index
      let p ← packedFor kind x
      Store.put id (.packed kind (items.set i p))
  | .object id, some (.dict table) => do
      needKey index
      Store.put id (.dict (s.withEntry table index x))
  | .object _, some (.grid kind shape elements offset) =>
      storeInGrid kind shape elements offset index x
  | _, _ => Act.fail (.refused .type)

/-! ## §3. Removing and inserting. -/

/-- Remove the element of a container under a subscript. -/
def deleteAt (v index : Value) : Act Store Unit := do
  let s ← Act.reading id
  match v, s.cell? v with
  | .object id, some (.list items) => do
      let i ← positionOf items.length index
      Store.put id (.list (items.eraseIdx i))
  | .object id, some (.deque items changes) => do
      let i ← positionOf items.length index
      Store.put id (.deque (items.eraseIdx i) (changes + 1))
  | .object id, some (.bytes .changeable data) => do
      let i ← positionOf data.length index
      Store.put id (.bytes .changeable (data.eraseIdx i))
  | .object id, some (.packed kind items) => do
      let i ← positionOf items.length index
      Store.put id (.packed kind (items.eraseIdx i))
  | .object id, some (.dict table) => do
      needKey index
      if (s.valueUnder? table index).isSome then
        Store.put id (.dict (table.erase fun k => s.same k index))
      else Act.fail (.refused .key)
  | .object _, some (.grid ..) => Act.fail (.refused .value)
  | _, _ => Act.fail (.refused .type)

/-- An element put into a list at a position. -/
def inserted {α : Type} (items : List α) (i : Nat) (x : α) : List α :=
  items.take i ++ x :: items.drop i

/-- The position that a value stands for, before it is compared with the size. -/
def indexOf (v : Value) : Act Store Int := do
  match (← scalarOf v).integer? with
  | none => Act.fail (.refused .type)
  | some i => if sizeWidth.holds i then pure i else Act.fail (.refused .overflow)

/-- Put an element into a container before a position. -/
def insertAt (v : Value) (index : Int) (x : Value) : Act Store Unit := do
  match v, ← Act.reading (·.cell? v) with
  | .object id, some (.list items) =>
      Store.put id (.list (inserted items (Place.insertionPoint items.length index) x))
  | .object id, some (.deque items changes) =>
      Store.put id
        (.deque (inserted items (Place.insertionPoint items.length index) x) (changes + 1))
  | .object id, some (.bytes .changeable data) => do
      let b ← byteFor x
      Store.put id (.bytes .changeable (inserted data (Place.insertionPoint data.length index) b))
  | .object id, some (.packed kind items) => do
      let p ← packedFor kind x
      Store.put id (.packed kind (inserted items (Place.insertionPoint items.length index) p))
  | _, _ => Act.fail (.refused .attribute)

/-! ## §4. The operations of containers. -/

/-- Replace the elements of a growing container. -/
def putItems (id : Id) (c : Cell) (items : List Value) : Act Store Unit :=
  match c with
  | .list _ => Store.put id (.list items)
  | .deque _ changes => Store.put id (.deque items (changes + 1))
  | .bytes kind _ => do
      Store.put id (.bytes kind (← items.mapM byteFor))
  | .packed kind _ => do
      Store.put id (.packed kind (← items.mapM (packedFor kind)))
  | _ => Act.fail (.refused .attribute)

/-- The position of the first of some elements that is equal to a value. -/
def findEqual (run : Runner) (fuel : Nat) (x : Value) : List Value → Nat → Act Store (Option Nat)
  | [], _ => pure none
  | y :: rest, i => do
      if ← equalInside run fuel y x then return some i else findEqual run fuel x rest (i + 1)

/-- What a container gives out of an element that it loses: packed numbers are made anew. -/
def released (c : Cell) (x : Value) : Act Store Value :=
  match c with
  | .packed .. => Store.remark x
  | _ => pure x

/-- The operations of a container whose elements have positions. -/
def sequenceOperation (run : Runner) (fuel : Nat) (v : Value) (id : Id) (c : Cell)
    (items : List Value) : Operation → List Value → Act Store Value
  | .append, [x] => do
      putItems id c (items ++ [x])
      return .null
  | .insert, [i, x] => do
      insertAt v (← indexOf i) x
      return .null
  | .pop, [] =>
      match items.getLast? with
      | none => Act.fail (.refused .index)
      | some x => do
          putItems id c items.dropLast
          released c x
  | .pop, [i] =>
      match c with
      | .deque .. => Act.fail (.refused .type)
      | _ => do
          discard (indexOf i)
          let x ← elementOf items i
          deleteAt v i
          released c x
  | .clear, arguments =>
      match c, arguments with
      | .packed .., _ => Act.fail (.refused .attribute)
      | _, [] => do
          if !items.isEmpty then putItems id c []
          return .null
      | _, _ => Act.fail (.refused .type)
  | .reverse, [] => do
      match c with
      | .deque _ changes => Store.put id (.deque items.reverse changes)
      | _ => putItems id c items.reverse
      return .null
  | .remove, [x] => do
      if let .bytes .. := c then discard (byteFor x)
      match ← findEqual run fuel x items 0 with
      | none => Act.fail (.refused .value)
      | some i => do
          deleteAt v (.int i)
          return .null
  | .setItem, [i, x] => do
      -- Queues have positions of a width; the others only compare them with the size.
      if let .deque .. := c then discard (indexOf i)
      storeAt v i x
      return .null
  | .append, _ | .insert, _ | .pop, _ | .reverse, _ | .remove, _ | .setItem, _ =>
      Act.fail (.refused .type)
  | _, _ => Act.fail (.refused .attribute)

/-- Fail unless a value can be looked up in a set: a set stands for its members. -/
def needMember (v : Value) : Act Store Unit := do
  match ← Act.reading (·.cell? v) with
  | some (.set ..) => pure ()
  | _ => needKey v

/-- The operations of a set. -/
def setOperation (id : Id) (t : Scatter) : Operation → List Value → Act Store Value
  | .add, [x] => do
      needKey x
      Store.put id (.set false (← Act.reading fun s => s.withMember t x))
      return .null
  | .discard, [x] => do
      needMember x
      Store.put id (.set false (← Act.reading fun s => t.erase (s.same x)))
      return .null
  | .remove, [x] => do
      needMember x
      let s ← Act.reading (fun s => s)
      if t.members.any (s.same x) then
        Store.put id (.set false (t.erase (s.same x)))
        return .null
      else Act.fail (.refused .key)
  | .pop, [] =>
      match t.pop? with
      | none => Act.fail (.refused .key)
      | some (x, rest) => do
          Store.put id (.set false rest)
          return x
  | .clear, [] => do
      Store.put id (.set false t.clear)
      return .null
  | .add, _ | .discard, _ | .remove, _ | .pop, _ | .clear, _ => Act.fail (.refused .type)
  | _, _ => Act.fail (.refused .attribute)

/-- The value under a key that is to be removed; without entries, anything is taken for a key. -/
def entryToPop (table : Table) (key : Value) : Act Store (Option Value) := do
  if table.size ≠ 0 then needKey key
  Act.reading (·.valueUnder? table key)

/-- The operations of a dictionary. -/
def dictOperation (v : Value) (id : Id) (table : Table) :
    Operation → List Value → Act Store Value
  | .setItem, [k, x] => do
      storeAt v k x
      return .null
  | .pop, [k] => do
      match ← entryToPop table k with
      | some x => do
          deleteAt v k
          return x
      | none => Act.fail (.refused .key)
  | .pop, [k, fallback] => do
      match ← entryToPop table k with
      | some x => do
          deleteAt v k
          return x
      | none => return fallback
  | .clear, [] => do
      Store.put id (.dict {})
      return .null
  | .setItem, _ | .pop, _ | .clear, _ => Act.fail (.refused .type)
  | _, _ => Act.fail (.refused .attribute)

/-- The operations of a container. -/
def containerOperation (run : Runner) (fuel : Nat) (v : Value) (op : Operation)
    (arguments : List Value) : Act Store Value := do
  match v, ← Act.reading (·.cell? v) with
  | .object id, some c =>
      match c with
      | .list items | .deque items _ =>
          sequenceOperation run fuel v id c items op arguments
      | .bytes .changeable data =>
          sequenceOperation run fuel v id c (data.map fun b => .int b.toNat) op arguments
      | .packed _ items =>
          sequenceOperation run fuel v id c (items.map (Plain.toValue 0)) op arguments
      | .set false t => setOperation id t op arguments
      | .dict table => dictOperation v id table op arguments
      | .grid .. | .bytes .view _ =>
          match op, arguments with
          | .setItem, [i, x] => do
              storeAt v i x
              return .null
          | .setItem, _ => Act.fail (.refused .type)
          | _, _ => Act.fail (.refused .attribute)
      | _ => Act.fail (.refused .attribute)
  | _, _ => Act.fail (.refused .attribute)

end Cursors.Workspace
