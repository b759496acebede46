/-
  Cursors.Workspace.Interface
  ───────────────────────────
  **THE ITERATORS OF A WORKSPACE.**

  Every iterator of a workspace is one of the primitives and combinators,
  put to work on a part of the store: its sources answer by requests, its
  container is a cell, the user's functions are guarded calls.  What an
  iterator answers is handed on as a value; positions that were given as
  truth values or scalars show in these answers.
-/
import Cursors.Combinator.Transform
import Cursors.Primitive.Cursor
import Cursors.Primitive.ReadOnly
import Cursors.Workspace.Walk

namespace Cursors.Workspace

/-! ## §1. The parts of the store that hold states. -/

/-- The state of a look-ahead. -/
def peekPart (v : Value) : Field Store (Peek Value) :=
  part v {} (fun | .peek _ s => some s | _ => none)
    (fun t it => match it with | .peek x _ => .peek x t | it => it)

/-- The state of a cursor. -/
def cursorPart (v : Value) : Field Store Cursor :=
  part v {} (fun | .cursor _ s => some s | _ => none)
    (fun t it => match it with | .cursor x _ => .cursor x t | it => it)

/-- The state of a window. -/
def windowPart (v : Value) : Field Store Window :=
  part v (.fresh default default) (fun | .window _ s => some s | _ => none)
    (fun t it => match it with | .window x _ => .window x t | it => it)

/-- The state of a two-way window. -/
def listWindowPart (v : Value) : Field Store ListWindow :=
  part v ⟨.fresh default default, none⟩ (fun | .listWindow _ s => some s | _ => none)
    (fun t it => match it with | .listWindow x _ => .listWindow x t | it => it)

/-- The state of a single value. -/
def singlePart (v : Value) : Field Store (Single Value) :=
  part v { item := .null } (fun | .single _ s => some s | _ => none)
    (fun t it => match it with | .single r _ => .single r t | it => it)

/-- The state of a two-way single value. -/
def listSinglePart (v : Value) : Field Store (ListSingle Value) :=
  part v { item := .null } (fun | .listSingle s => some s | _ => none)
    (fun t it => match it with | .listSingle _ => .listSingle t | it => it)

/-- The state of a filter. -/
def filterPart (v : Value) : Field Store (Filter Value) :=
  part v {} (fun | .filter _ _ _ s => some s | _ => none)
    (fun t it => match it with | .filter x p c _ => .filter x p c t | it => it)

/-- The state of a two-way filter. -/
def listFilterPart (v : Value) : Field Store (ListFilter Value) :=
  part v {} (fun | .listFilter _ _ _ s => some s | _ => none)
    (fun t it => match it with | .listFilter x p c _ => .listFilter x p c t | it => it)

/-- The state of a chain. -/
def chainPart (v : Value) : Field Store (Chain Value) :=
  part v {} (fun | .chain s => some s | _ => none)
    (fun t it => match it with | .chain _ => .chain t | it => it)

/-- The state of a merge. -/
def mergePart (v : Value) : Field Store (Merge Value) :=
  part v {} (fun | .merge _ _ s => some s | _ => none)
    (fun t it => match it with | .merge x c _ => .merge x c t | it => it)

/-- The state of a ring. -/
def ringPart (v : Value) : Field Store Ring :=
  part v { expected := 0 } (fun | .ring _ s => some s | _ => none)
    (fun t it => match it with | .ring x _ => .ring x t | it => it)

/-- The state of a cycle. -/
def cyclePart (v : Value) : Field Store (Cycle Value) :=
  part v { expected := 0, walk := .null } (fun | .cycle _ s => some s | _ => none)
    (fun t it => match it with | .cycle x _ => .cycle x t | it => it)

/-- The state of a two-way ring. -/
def listRingPart (v : Value) : Field Store ListRing :=
  part v { expected := 0 } (fun | .listRing _ s => some s | _ => none)
    (fun t it => match it with | .listRing x _ => .listRing x t | it => it)

/-- The state of a flattening. -/
def flattenPart (v : Value) : Field Store (Flatten Value Value) :=
  part v {} (fun | .flatten _ _ s => some s | _ => none)
    (fun t it => match it with | .flatten f c _ => .flatten f c t | it => it)

/-- The state of a buffer. -/
def bufferPart (v : Value) : Field Store (Buffer Value) :=
  part v {} (fun | .buffer _ _ s => some s | _ => none)
    (fun t it => match it with | .buffer x r _ => .buffer x r t | it => it)

/-- The position of a scripted iterator. -/
def probePart (v : Value) : Field Store Nat :=
  part v 0 (fun | .probe _ _ _ n => some n | _ => none)
    (fun n it => match it with | .probe w l x _ => .probe w l x n | it => it)

/-! ## §2. Calls of the user's functions. -/

/-- The guard of an iterator: its report names the element, the iterator and its creation. -/
def guardOf (owner : String) (created : Option String) : Guard Store Value where
  mode := Store.mode
  report := fun s x => do
    match created with
    -- What does not know where it was created cannot report.
    | none => .error (.refused .attribute)
    | some created =>
        return "Failed to evaluate " ++ (← s.show x) ++ " in " ++ owner ++ " created at:\n"
          ++ created

/-- A guarded call of a function on an element. -/
def guarded (run : Runner) (owner : String) (created : Option String) (function x : Value) :
    Act Store Value :=
  (guardOf owner created).call (fun x => run (.apply function [x])) x

/-- Whether a predicate accepts an element. -/
def acceptsOf (run : Runner) (owner created : String) (predicate x : Value) :
    Act Store Bool := do
  truthOf (← guarded run owner (some created) predicate x)

/-- Whether one element goes before another: by the natural order if there is no comparator. -/
def precedesOf (run : Runner) (fuel : Nat) (comparator x y : Value) : Act Store Bool := do
  if comparator = .null then return (← naturalOrder run fuel x y) < 0
  else isBefore run fuel (← run (.apply comparator [x, y]))

/-- How values nest under a classifier. -/
def nestingOf (run : Runner) (owner created : String) (classifier : Value) :
    Nesting Store Value Value where
  classify := fun x =>
    if classifier = .null then pure x else guarded run owner (some created) classifier x
  branch := fun x => do
    if ← Act.reading (·.isIterator x) then return some (← adapt run x) else return none
  single := fun x => Store.alloc (.iterator (.single (.bool false) { item := x }))
  elements := sourceOf run

/-! ## §3. Scalars. -/

/-- Whether the shape of the objects of a class says that they have no dimensions. -/
def hasNoDimensions (run : Runner) (fuel : Nat) (record : ClassRecord) : Act Store Bool := do
  match record.shape with
  | some shape => do equal run fuel shape (← Store.alloc (.tuple []))
  | none => return false

/-- The member by which an object or a class without dimensions converts itself. -/
def conversion? (run : Runner) (fuel : Nat) (record : ClassRecord) :
    Act Store (Option (Member Expr)) := do
  match record.spec.member? .item with
  | none | some .absent => return none
  | some member =>
      if ← hasNoDimensions run fuel record then return some member else return none

/-- The plain value of a scalar; of other values, what their own conversion gives, if they have
one and no dimensions. -/
def plainValue (run : Runner) (fuel : Nat) (v : Value) : Act Store Value := do
  let s ← Act.reading (fun s => s)
  match v, s.cell? v with
  | .scalar _ content _, _ => Store.number content
  | _, some (.grid _ [] elements offset) =>
      match s.gridItems [] elements offset with
      | p :: _ => Store.number p
      | [] => return v
  | _, some (.custom record _) =>
      match ← conversion? run fuel record with
      | some member => callMember run member
      | none => return v
  | _, some (.type record) =>
      match ← conversion? run fuel record with
      | some _ => wrongType
      | none => return v
  | _, _ => return v

/-- A container by positions, with scalars made plain. -/
def plainItemsOf (run : Runner) (fuel : Nat) (v : Value) : Sequence Store Value :=
  { itemsOf run v with
    get := fun p => do plainValue run fuel (← run (.element v (.ofPlace p))) }

end Cursors.Workspace
