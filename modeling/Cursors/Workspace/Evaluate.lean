/-
  Cursors.Workspace.Evaluate
  ──────────────────────────
  **EVALUATING EXPRESSIONS.**

  An expression is evaluated from left to right, each container to a new
  object.  Of equal members of a set the first one stays.  The objects of a
  class share the values of its plain members.
-/
import Cursors.Workspace.Build

namespace Cursors.Workspace

/-! ## §1. Unordered containers. -/

/-- A set of values. -/
def newSet (frozen : Bool) (vs : List Value) : Act Store Value := do
  vs.forM needKey
  Store.alloc (.set frozen (← Act.reading fun s => vs.foldl s.withMember {}))

/-! ## §2. Typed containers. -/

/-- A grid of values, which may be rows themselves; a scalar if there is a single one and no
shape. -/
def newGrid (kind : ElementKind) (shape : List Nat) (vs : List Value) : Act Store Value := do
  let s ← Act.reading (fun s => s)
  let (_, leaves) ← Act.ofExcept do joinRows (← vs.mapM (s.layOut deepestRow))
  let items ← leaves.mapM (leafFor kind)
  if items.length ≠ volume shape then Act.fail (.refused .value)
  newElements kind shape items

/-- A scalar of a value; of a row, a grid of its elements. -/
def newScalar (kind : ElementKind) (v : Value) : Act Store Value := do
  match ← gridFor kind v with
  | ⟨_, [], [p]⟩ => Store.scalar kind p
  | ⟨_, shape, items⟩ => newElements kind shape items

/-- A value wrapped in so many nodes. -/
def newNest (v : Value) : Nat → Act Store Value
  | 0 => pure v
  | depth + 1 => do newNest (← Store.alloc (.node [v])) depth

/-- A count in equal steps.  In steps of one a truth value counts as an integer. -/
def newCount (start step : Value) : Act Store Value := do
  if start.plain?.isNone || step.plain?.isNone then wrongType
  let start := match start, step with
    | .bool b, .int 1 | .bool b, .bool true => .int b.toNat
    | start, _ => start
  Store.alloc (.stream (.count start step))

/-! ## §3. Classes. -/

/-- One of the types that scripts know: there is only one of each name. -/
def builtinType (name : String) : Act Store Value := do
  let known ← Act.reading fun s => s.cells.findIdx? fun c => match c with
    | .builtin other => other == name
    | _ => false
  match known with
  | some id => return .object id
  | none => Store.alloc (.builtin name)

/-- A step of a scripted source whose value is known. -/
def settleItem (run : Runner) : Item Expr → Act Store (Item Value)
  | .value e => do return .value (← run (.evaluate e))
  | .fails cause => pure (.fails cause)
  | .ends => pure .ends

/-- A member of a class whose plain value is known. -/
def settleMember (run : Runner) : Member Expr → Act Store (Member Expr)
  | .plain e => do
      if (← run (.evaluate e)) = .null then return .absent else return .uncallable
  | member => pure member

/-- The class of a description. -/
def newRecord (run : Runner) (spec : ClassSpec Expr) : Act Store ClassRecord := do
  let members ← spec.members.mapM fun (name, member) => do
    return (name, ← settleMember run member)
  let shape ← match spec.shape with
    | some e => do pure (some (← run (.evaluate e)))
    | none => pure none
  return { spec := { spec with members := members }, shape := shape }

/-- Whether a class leaves nothing open that a map must have. -/
def ClassRecord.isComplete (r : ClassRecord) : Bool :=
  !r.spec.mapping
    || (r.spec.lookup.isSome && r.spec.length.isSome && (r.spec.member? .iter).isSome)

/-- An object of a class. -/
def newObject (record : ClassRecord) : Act Store Value :=
  if record.isComplete then Store.alloc (.custom record 0) else wrongType

/-! ## §4. Expressions. -/

/-- Evaluate expressions from left to right. -/
def evaluateAll (run : Runner) (es : List Expr) : Act Store (List Value) :=
  es.mapM fun e => run (.evaluate e)

/-- Evaluate an expression, leaving its parts to requests. -/
def evaluate (run : Runner) (fuel : Nat) : Expr → Act Store Value
  | .null => pure .null
  | .bool b => pure (.bool b)
  | .int n => pure (.int n)
  | .float bits => Store.number (.float bits)
  | .text t => pure (.text t)
  | .list es => do Store.alloc (.list (← evaluateAll run es))
  | .tuple es => do Store.alloc (.tuple (← evaluateAll run es))
  | .deque es => do Store.alloc (.deque (← evaluateAll run es) 0)
  | .set frozen es => do newSet frozen (← evaluateAll run es)
  | .dict entries => do
      newDict (← entries.mapM fun (k, x) => do
        let k ← run (.evaluate k)
        let x ← run (.evaluate x)
        return (k, x))
  | .bytes kind data => Store.alloc (.bytes kind data)
  | .range start stop step =>
      if step = 0 then Act.fail (.refused .value) else Store.alloc (.range start stop step)
  | .packed kind es => do
      let vs ← evaluateAll run es
      Store.alloc (.packed kind (← vs.mapM (packedFor kind)))
  | .grid kind shape es => do newGrid kind shape (← evaluateAll run es)
  | .scalar kind e => do newScalar kind (← run (.evaluate e))
  | .node es => do Store.alloc (.node (← evaluateAll run es))
  | .nest depth e => do newNest (← run (.evaluate e)) depth
  | .builtin name => builtinType name
  | .callback f label => Store.alloc (.callback f label 0)
  | .ref name => Store.valueOf name
  | .iterate e => do run (.walk (← run (.evaluate e)))
  | .count start step => do
      let start ← run (.evaluate start)
      let step ← run (.evaluate step)
      newCount start step
  | .probe twoWay label items => do
      Store.alloc (.iterator (.probe twoWay label (← items.mapM (settleItem run)) 0))
  | .object spec => do newObject (← newRecord run spec)
  | .type spec => do Store.alloc (.type (← newRecord run spec))
  | .make recipe es => do build run fuel recipe (← evaluateAll run es)
  | .call name op es => do
      let target ← Store.valueOf name
      run (.ask target op (← evaluateAll run es))
  | .unreadable => Act.fail (.refused .key)

end Cursors.Workspace
