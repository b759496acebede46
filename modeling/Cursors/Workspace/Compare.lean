/-
  Cursors.Workspace.Compare
  ─────────────────────────
  **EQUALITY AND ORDER OF VALUES.**

  Plain numbers compare exactly with each other.  Texts go by code points,
  rows by their first difference, sets by inclusion, and rows of bytes by
  their content.  What meets an element of a grid, or a grid, is compared
  element by element, and the answer counts if it is a single one.  Maps are
  equal if their entries are.  Other pairs are equal only if they are the
  same object, and have no order.

  Inside of a container a value is equal to itself before anything else is
  asked.  Containers can hold themselves, so both relations carry the number
  of levels that may still be entered.
-/
import Cursors.Workspace.Request

namespace Cursors.Workspace

/-! ## §1. Meeting a grid. -/

/-- What a value is when it meets a grid. -/
inductive Spread where
  | numbers (g : Grid)
  | texts (shape : List Nat)
  | others (shape : List Nat) (items : List Value)

/-- What a row of rows holds at its ends: values of its own, and the elements of grids and of
other rows of numbers. -/
inductive Leaf where
  | value (v : Value)
  | element (kind : ElementKind) (content : Plain)

/-- A leaf as a value. -/
def Leaf.toValue : Leaf → Value
  | .value v => v
  | .element kind content => .scalar kind content 0

/-- The elements of a value whose elements have positions, and which is no text. -/
def Store.row? (s : Store) (v : Value) : Option (List Leaf) :=
  match s.cell? v with
  | some (.list items) | some (.tuple items) | some (.deque items _) =>
      some (items.map .value)
  | some (.range a b c) =>
      some ((List.range (rangeLength a b c)).map fun i : Nat => .value (.int (a + c * i)))
  | some (.bytes .constant _) => none
  | some (.bytes _ data) =>
      some (data.map fun b => .element (.integer (.unsigned 8)) (.int b.toNat))
  | some (.packed kind items) => some (items.map (.element kind.element))
  | _ => none

/-- The shape of the rows of a row, which must have one shape, and all that they hold. -/
def joinRows (parts : List (List Nat × List Leaf)) : Except Failure (List Nat × List Leaf) :=
  let shape := (parts.head?.map (·.1)).getD []
  if parts.all fun part => part.1 = shape then
    .ok (parts.length :: shape, parts.flatMap (·.2))
  else .error (.refused .value)

/-- The shape of a value and what it holds, entering rows of rows to so many levels; a grid has
to have its axes within them. -/
def Store.layOut (s : Store) : Nat → Value → Except Failure (List Nat × List Leaf)
  | levels, v =>
      match s.cell? v, s.row? v, levels with
      | some (.grid kind shape elements offset), _, _ =>
          if shape.length ≤ levels then
            .ok (shape, (s.gridItems shape elements offset).map (.element kind))
          else .error (.refused .value)
      | _, some leaves, levels + 1 => do
          joinRows (← leaves.mapM fun leaf => match leaf with
            | .value v => s.layOut levels v
            | leaf => .ok ([], [leaf]))
      | _, _, _ => .ok ([], [.value v])

/-- The kind that a value has as an element of a grid. -/
def Value.elementKind? : Value → Option ElementKind
  | .bool _ => some .bool
  | .int n =>
      -- Integers are signed while they fit, and have no kind once they do not fit at all.
      [.signed 64, .unsigned 64].findSome? fun w : Number.Width =>
        if w.holds n then some (.integer w) else none
  | .float .. => some (.float 64)
  | .scalar kind .. => some kind
  | _ => none

/-- Whether a value is written in characters. -/
def Store.isWritten (s : Store) (v : Value) : Bool :=
  match v, s.cell? v with
  | .text _, _ | _, some (.bytes .constant _) => true
  | _, _ => false

/-- The levels to which rows of rows are entered when they meet a grid. -/
def deepestRow : Nat := 64

/-- What a value is when it meets a grid. -/
def Store.spread (s : Store) (v : Value) : Except Failure Spread :=
  match v.operand? with
  | some a => .ok (.numbers ⟨a.kind, [], [a.content]⟩)
  | none => do
      let (shape, leaves) ← s.layOut deepestRow v
      let items := leaves.map Leaf.toValue
      match items.mapM Value.elementKind? with
      | some kinds =>
          let kind := match kinds with
            | [] => .float 64
            | k :: ks => ks.foldl ElementKind.join k
          return .numbers ⟨some kind, shape, items.map fun x =>
            kind.convert (x.plain?.getD (.bool false))⟩
      | none =>
          -- One text makes texts of all numbers; integers that are too large do not.
          if items.all (fun x => x.plain?.isSome || s.isWritten x) && items.any s.isWritten then
            return .texts shape
          else return .others shape items

/-- The shape of a spread value, and its elements as plain values. -/
def Spread.values : Spread → List Nat × List Value
  | .numbers g => (g.shape, g.items.map (Plain.toValue 0))
  | .texts shape => (shape, List.replicate (volume shape) .null)
  | .others shape items => (shape, items)

/-- Whether a relation holds between two values of which one is of a grid: `numbers` tells by
the order of two numbers, `others` tells for other elements, and between a number and a text it
does not hold, unless `texts` refuses. -/
def compareSpread (numbers : Option Ordering → Bool) (texts : Option Failure)
    (others : Value → Value → Act Store Bool) (a b : Value) : Act Store Bool := do
  let s ← Act.reading (fun s => s)
  let x ← Act.ofExcept (s.spread a)
  let y ← Act.ofExcept (s.spread b)
  match x, y with
  | .numbers g, .numbers h => Act.ofExcept (g.compare h numbers)
  | x, y => do
      let isText : Bool := match x, y with
        | .texts _, _ | _, .texts _ => true
        | _, _ => false
      if let (true, some refusal) := (isText, texts) then Act.fail refusal
      let (xs, ys) := (x.values, y.values)
      let (_, pairs) ← Act.ofExcept (meetings xs.1 xs.2 ys.1 ys.2)
      let answers ← pairs.mapM fun (p, q) => if isText then pure false else others p q
      Act.ofExcept (soleAnswer answers)

/-- Whether a value is a grid or an element of one. -/
def Store.isOfGrid (s : Store) (v : Value) : Bool :=
  match v, s.cell? v with
  | .scalar .., _ | _, some (.grid ..) => true
  | _, _ => false

/-! ## §2. Memory. -/

/-- The bytes by which a number of a kind is stored, the least first. -/
def storedBytes (kind : ElementKind) (p : Plain) : List UInt8 :=
  match kind, p with
  | .integer width, .int n => width.bytes n
  | .float 64, .float bits => (Number.Width.unsigned 64).bytes bits.toNat
  | _, p => [if p.isTrue then 1 else 0]

/-- The numbers that a value holds next to each other in memory, with their kind. -/
def Store.memory? (s : Store) (v : Value) : Option (ElementKind × List Plain) :=
  match v, s.cell? v with
  | .scalar kind p _, _ => some (kind, [p])
  | _, some (.bytes _ data) =>
      some (.integer (.unsigned 8), data.map fun b => .int b.toNat)
  | _, some (.packed kind items) => some (kind.element, items)
  | _, some (.grid kind shape elements offset) =>
      some (kind, s.gridItems shape elements offset)
  | _, _ => none

/-- Two rows of bytes in memory, if one of the values is a changeable row of bytes and the other
has its content in memory; a grid on the left compares in its own way. -/
def Store.rawPair? (s : Store) (a b : Value) : Option (List UInt8 × List UInt8) :=
  let raw (m : ElementKind × List Plain) : List UInt8 := m.2.flatMap (storedBytes m.1)
  match s.cell? a, s.cell? b with
  | some (.bytes .changeable data), _ => (s.memory? b).map fun m => (data, raw m)
  | _, some (.bytes .changeable data) =>
      if s.isOfGrid a then none else (s.memory? a).map fun m => (raw m, data)
  | _, _ => none

/-- Whether rows of numbers are equal. -/
def equalNumbers (xs ys : List Plain) : Bool :=
  xs.length == ys.length
    && (xs.zip ys).all fun (x, y) => x.magnitude.compare y.magnitude == some .eq

/-- The axes along which a value has its numbers in memory. -/
def Store.axes (s : Store) (v : Value) : Nat :=
  match v, s.cell? v with
  | .scalar .., _ => 0
  | _, some (.grid _ shape ..) => shape.length
  | _, _ => 1

/-- Whether two values hold the same numbers in memory along the same axes, if one of them is a
view of bytes and the other has its content in memory; a grid on the left compares in its own
way. -/
def Store.viewsEqual? (s : Store) (a b : Value) : Option Bool :=
  match s.cell? a, s.cell? b with
  | some (.bytes .view _), _ | _, some (.bytes .view _) =>
      if s.isOfGrid a then none
      else do
        let x ← s.memory? a
        let y ← s.memory? b
        return s.axes a = s.axes b && equalNumbers x.2 y.2
  | _, _ => none

/-! ## §3. Maps. -/

/-- Whether a value is a map, and whether one of a scripted class. -/
def Store.map? (s : Store) (v : Value) : Option Bool :=
  match s.cell? v with
  | some (.dict _) => some false
  | some (.custom record _) => if record.spec.mapping then some true else none
  | _ => none

/-- The entries of a map: its elements and what it has under them, which is asked for step by
step. -/
def mapTable (run : Runner) (fuel : Nat) (v : Value) : Act Store Table := do
  match ← Act.reading (·.cell? v) with
  | some (.dict table) => return table
  | _ => do
      let walk ← (run (.walk v)).sealed
      let entries ← collectWalk run walk (fun k => do
        let x ← (run (.element v k)).sealed
        needKey k
        return (k, x)) fuel []
      let s ← Act.reading (fun s => s)
      return entries.foldl (fun made e => made.insert (s.same e.1 ·) e.1 e.2) {}

/-! ## §4. Equality. -/

/-- Whether `holds` of all pairs of two lists of the same length, asking from left to right. -/
def allPairs (holds : Value → Value → Act Store Bool) : List Value → List Value → Act Store Bool
  | [], [] => pure true
  | x :: xs, y :: ys => do
      if ← holds x y then allPairs holds xs ys else return false
  | _, _ => pure false

/-- Whether two values are equal, entering at most the given number of levels. -/
def equalWithin (run : Runner) (fuel : Nat) : Nat → Value → Value → Act Store Bool
  | 0, _, _ => Act.fail (.refused .recursion)
  | levels + 1, a, b => do
      let s ← Act.reading (fun s => s)
      let inner (x y : Value) : Act Store Bool :=
        if x = y then pure true else equalWithin run fuel levels x y
      match s.rawPair? a b, s.viewsEqual? a b, a.plain?, b.plain? with
      | some (x, y), _, _, _ => return x == y
      | none, some answer, _, _ => return answer
      | none, none, x, y =>
          if s.isOfGrid a || s.isOfGrid b then
            compareSpread (· == some .eq) none inner a b
          else
            match x, y with
            | some p, some q => return p.magnitude.compare q.magnitude == some .eq
            | _, _ =>
                match s.cell? a, s.cell? b with
                | some (.list xs), some (.list ys) | some (.tuple xs), some (.tuple ys)
                | some (.deque xs _), some (.deque ys _) =>
                    if xs.length = ys.length then allPairs inner xs ys else return false
                | some (.packed _ xs), some (.packed _ ys) => return equalNumbers xs ys
                | some (.dict t), some (.dict u) => equalTables inner t u
                | _, _ =>
                    match s.map? a, s.map? b with
                    -- The map of a scripted class is asked first.
                    | some false, some true => do
                        let u ← mapTable run fuel b
                        equalTables inner u (← mapTable run fuel a)
                    | some _, some _ => do
                        let t ← mapTable run fuel a
                        equalTables inner t (← mapTable run fuel b)
                    | _, _ => return s.same a b
where
  /-- Whether two dictionaries have the same keys and equal values under them. -/
  equalTables (inner : Value → Value → Act Store Bool) (t u : Table) : Act Store Bool :=
    if t.size = u.size then go inner u t.entries else pure false
  /-- Whether a dictionary has equal values under the keys of these entries. -/
  go (inner : Value → Value → Act Store Bool) (u : Table) : List (Value × Value) →
      Act Store Bool
    | [] => pure true
    | (k, x) :: rest => do
        match ← Act.reading (·.valueUnder? u k) with
        | some y => if ← inner y x then go inner u rest else return false
        | none => return false

/-- The number of levels that comparisons enter. -/
def deepestComparison : Nat := 1000

/-- Whether two values are equal. -/
def equal (run : Runner) (fuel : Nat) (a b : Value) : Act Store Bool :=
  equalWithin run fuel deepestComparison a b

/-- Whether a value inside of a container is the same as another one or equal to it. -/
def equalInside (run : Runner) (fuel : Nat) (a b : Value) : Act Store Bool :=
  if a = b then pure true else equal run fuel a b

/-! ## §5. Order. -/

/-- Whether one list goes before another: the first difference decides, else the length. -/
def lessLists (eq less : Value → Value → Act Store Bool) :
    List Value → List Value → Act Store Bool
  | [], ys => pure !ys.isEmpty
  | _ :: _, [] => pure false
  -- The first difference decides, or refuses to.
  | x :: xs, y :: ys => do
      if ← eq x y then lessLists eq less xs ys else less x y

/-- Whether one row of codes goes before another. -/
def lessCodes : List Nat → List Nat → Bool
  | [], ys => !ys.isEmpty
  | _ :: _, [] => false
  | x :: xs, y :: ys => if x == y then lessCodes xs ys else x < y

/-- Whether a row of numbers goes before another. -/
def lessNumbers : List Plain → List Plain → Bool
  | [], ys => !ys.isEmpty
  | _ :: _, [] => false
  | x :: xs, y :: ys =>
      match x.magnitude.compare y.magnitude with
      | some .eq => lessNumbers xs ys
      | c => c == some .lt

/-- Whether a value goes before another, entering at most the given number of levels. -/
def lessWithin (run : Runner) (fuel : Nat) : Nat → Value → Value → Act Store Bool
  | 0, _, _ => Act.fail (.refused .recursion)
  | levels + 1, a, b => do
      let s ← Act.reading (fun s => s)
      let eq := equalInside run fuel
      let less := lessWithin run fuel levels
      let codes (data : List UInt8) : List Nat := data.map UInt8.toNat
      match s.rawPair? a b with
      | some (x, y) => return lessCodes (codes x) (codes y)
      | none =>
          if s.isOfGrid a || s.isOfGrid b then
            compareSpread (· == some .lt) (some (.refused .kinds)) less a b
          else
            match a.plain?, b.plain?, a, b with
            | some p, some q, _, _ => return p.magnitude.compare q.magnitude == some .lt
            | _, _, .text x, .text y =>
                return lessCodes (x.toList.map Char.toNat) (y.toList.map Char.toNat)
            | _, _, _, _ =>
                match s.cell? a, s.cell? b with
                | some (.list xs), some (.list ys) | some (.tuple xs), some (.tuple ys)
                | some (.deque xs _), some (.deque ys _) => lessLists eq less xs ys
                | some (.bytes .constant x), some (.bytes .constant y) =>
                    return lessCodes (codes x) (codes y)
                | some (.packed _ xs), some (.packed _ ys) => return lessNumbers xs ys
                | some (.set _ t), some (.set _ u) =>
                    return t.size < u.size && t.members.all fun x => u.members.any (s.same x)
                | _, _ => wrongType

/-- Whether a value goes before another. -/
def less (run : Runner) (fuel : Nat) (a b : Value) : Act Store Bool :=
  lessWithin run fuel deepestComparison a b

/-- The natural order of two values, as a sign. -/
def naturalOrder (run : Runner) (fuel : Nat) (a b : Value) : Act Store Int := do
  if ← less run fuel a b then return -1
  if ← less run fuel b a then return 1
  return 0

/-- Whether the answer of a comparison says that its first argument goes before its second. -/
def isBefore (run : Runner) (fuel : Nat) (answer : Value) : Act Store Bool :=
  less run fuel answer (.int 0)

end Cursors.Workspace
