/-
  Cursors.Workspace.Callback
  ──────────────────────────
  **CALLING THE FUNCTIONS OF A SCRIPT.**

  A callback computes a result from its arguments, fails, or asks a named
  object for an operation on the way.  Where an integer is needed, nothing
  else will do, truth values included.  Values look alike if their
  documents are equal.
-/
import Cursors.Workspace.Source

namespace Cursors.Workspace

/-! ## §1. Arithmetic. -/

/-- The integer that a callback needs. -/
def needInteger (v : Value) : Act Store Int :=
  match v.literal? with
  | some n => pure n
  | none => Act.fail (.raised "ValueError" (some "not an int"))

/-- The sign of an integer. -/
def signOf (n : Int) : Int := if n < 0 then -1 else if n = 0 then 0 else 1

/-- A plain number as it takes part in plain arithmetic, where truth values are integers. -/
def Plain.asOperand (p : Plain) : Operand :=
  match p with
  | .bool b => ⟨none, .int b.toNat⟩
  | p => ⟨none, p⟩

/-- Two values combined: numbers, or grids element by element. -/
def combine (op : Arithmetic) (a b : Value) : Act Store Value := do
  let s ← Act.reading (fun s => s)
  if s.isOfGrid a || s.isOfGrid b then
    match ← Act.ofExcept (s.spread a), ← Act.ofExcept (s.spread b) with
    | .numbers g, .numbers h => do
        let d ← Act.ofExcept (g.combine op h)
        match d.kind, d.shape, d.items with
        | some kind, [], [p] => Store.scalar kind p
        | some kind, shape, items => newElements kind shape items
        | none, _, _ => wrongType
    | .texts _, .numbers _ | .numbers _, .texts _ => Act.fail (.refused .kinds)
    | _, _ => wrongType
  else
    match a.plain?, b.plain? with
    | some p, some q => do
        Store.number (← Act.ofExcept (Operand.combine op p.asOperand q.asOperand)).content
    | _, _ => wrongType

/-! ## §2. Results. -/

/-- The walk over the children of a node or over a list. -/
def childrenOf (v : Value) : Act Store Value := do
  match ← Act.reading (·.cell? v) with
  | some (.node children) => do
      let row ← Store.alloc (.tuple children)
      Store.alloc (.stream (.walk row 0))
  | some (.list _) => Store.alloc (.stream (.walk v 0))
  | _ => return v

/-- Whether one of the documents is that of the value. -/
def looksLikeOne (v : Value) (docs : List Document) : Act Store Bool := do
  return docs.contains (← documentOf v)

/-- The expression of the first row whose first half looks like the value. -/
def rowFor (run : Runner) (v : Value) : List (Expr × Expr) → Act Store (Option Expr)
  | [] => pure none
  | (key, e) :: rest => do
      if (← documentOf (← run (.evaluate key))) == (← documentOf v) then return some e
      rowFor run v rest

/-- The next of the successive results of the callback `id`. -/
def nextResult (run : Runner) (id : Id) (items : List (Item Expr)) : Act Store Value := do
  match ← Act.reading (·.cells[id]?) with
  | some (.callback f label given) => do
      Store.put id (.callback f label (given + 1))
      match items[min given (items.length - 1)]? with
      | some item => produce run item
      | none => Act.fail (.refused .index)
  | _ => return .null

/-- The result of a callback, which is the object `id`. -/
def resultOf (run : Runner) (id : Id) : Callback Expr → List Value → Act Store Value
  | .identity, [x] => pure x
  | .even, [x] => do return .bool ((← needInteger x) % 2 == 0)
  | .odd, [x] => do return .bool ((← needInteger x) % 2 == 1)
  | .negate, [x] => do return .int (-(← needInteger x))
  | .greater n, [x] => do return .bool ((← needInteger x) > n)
  | .less n, [x] => do return .bool ((← needInteger x) < n)
  | .plus n, [x] => do return .int ((← needInteger x) + n)
  | .times n, [x] => do return .int ((← needInteger x) * n)
  | .residue m r, [x] => do
      let n ← needInteger x
      if m = 0 then Act.fail (.refused .zeroDivision)
      return .bool (Int.fmod n m == r)
  | .pair, [x] => Store.alloc (.tuple [x, x])
  | .wrap, [x] => Store.alloc (.list [x])
  | .isNull, [x] => pure (.bool (x = .null))
  | .isText, [x] => pure (.bool (match x with | .text _ => true | _ => false))
  | .children, [x] => childrenOf x
  | .oneOf es, [x] => do
      let docs ← documentsOf (← es.mapM fun e => run (.evaluate e))
      return .bool (← looksLikeOne x docs)
  | .table rows, [x] => do
      match ← rowFor run x rows with
      | some e => run (.evaluate e)
      | none => return x
  | .compare, [a, b] => do
      let m ← needInteger a
      match b.plain? with
      | some q =>
          return .int (match (Plain.int m).magnitude.compare q.magnitude with
            | some .lt => -1
            | some .gt => 1
            | _ => 0)
      | none => wrongType
  | .difference, [a, b] => do
      discard (needInteger a)
      combine .minus a b
  | .reversed, [a, b] => do
      discard (needInteger b)
      combine .minus b a
  | .byIndex i, [a, b] => do
      let x ← run (.element a (.int i))
      let y ← run (.element b (.int i))
      combine .minus x y
  | .const e, _ => run (.evaluate e)
  | .negated f, arguments => do
      return .bool (!(← truthOf (← resultOf run id f arguments)))
  | .fails cause, _ => Act.fail cause
  | .failsOn es cause f, arguments => do
      -- The values are evaluated anew at every call.
      let docs ← documentsOf (← es.mapM fun e => run (.evaluate e))
      if ← arguments.anyM fun x => looksLikeOne x docs then Act.fail cause
      else resultOf run id f arguments
  | .results items, _ => nextResult run id items
  | .after name operation es f, arguments => do
      let target ← Store.valueOf name
      let xs ← es.mapM fun e => run (.evaluate e)
      discard (run (.ask target operation xs))
      resultOf run id f arguments
  | _, _ => wrongType

/-! ## §3. Calls. -/

/-- The entries of an object under its keys. -/
def keyedEntries (run : Runner) (fuel : Nat) (v keys : Value) :
    Act Store (List (Value × Value)) := do
  let keys ← drain run fuel (← run (.walk keys))
  keys.mapM fun k => do
    let x ← run (.element v k)
    needKey k
    return (k, x)

/-- The entries that rows of two give. -/
def rowEntries (run : Runner) (fuel : Nat) (v : Value) : Act Store (List (Value × Value)) :=
  collect run fuel v fun row => do
    match ← drain run fuel (← run (.walk row)) with
    | [k, x] => do
        needKey k
        return (k, x)
    | _ => Act.fail (.refused .value)

/-- The dictionary that a value gives: a copy of one, one of an object that has keys, or one of
rows of two. -/
def dictOf (run : Runner) (fuel : Nat) (v : Value) : Act Store Value := do
  match ← Act.reading (·.cell? v) with
  | some (.dict table) => Store.alloc (.dict table.copy)
  | some (.custom record _) =>
      match record.has .keys, record.spec.member? .keys with
      | true, some member => do newDict (← keyedEntries run fuel v (← callMember run member))
      | true, none => do
          -- A map that does not say what its keys are is walked for them.
          let keys ← collectWalk run (← (run (.walk v)).sealed) pure fuel []
          newDict (← keys.mapM fun k => do return (k, ← run (.element v k)))
      | false, _ => do newDict (← rowEntries run fuel v)
  | _ => do newDict (← rowEntries run fuel v)

/-- The text that a value gives. -/
def textOf (v : Value) : Act Store Value := do
  let s ← Act.reading (fun s => s)
  match v, s.cell? v with
  | .text _, _ => return v
  | .scalar kind content _, _ => return .text (scalarText kind content)
  | _, some (.grid kind shape elements offset) =>
      match shape, s.gridItems shape elements offset with
      | [], [p] => return .text (scalarText kind p)
      | shape, items => return .text (bareGridText kind shape items)
  | _, _ => return .text (← Act.ofExcept (s.show v))

/-- Call one of the types that scripts know. -/
def applyType (run : Runner) (fuel : Nat) : String → List Value → Act Store Value
  | "list", [] => Store.alloc (.list [])
  | "list", [x] => do Store.alloc (.list (← drain run fuel x))
  | "dict", [] => Store.alloc (.dict {})
  | "dict", [x] => dictOf run fuel x
  | "str", [] => pure (.text "")
  | "str", [x] => textOf x
  | _, _ => wrongType

/-- Call a function of the script. -/
def applyFunction (run : Runner) (fuel : Nat) (function : Value) (arguments : List Value) :
    Act Store Value := do
  match function, ← Act.reading (·.cell? function) with
  | .object id, some (.callback f label _) => do
      if let some label := label then
        Store.emit (.called label (← documentsOf arguments))
      resultOf run id f arguments
  | _, some (.builtin name) => applyType run fuel name arguments
  | _, _ => wrongType

end Cursors.Workspace
