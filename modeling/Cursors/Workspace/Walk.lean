/-
  Cursors.Workspace.Walk
  ──────────────────────
  **WALKS OVER VALUES.**

  How a value is walked: containers by position, unordered collections under
  a stamp that detects changes, objects of scripted classes by their own
  walk or by subscripts.  A walk that has ended stays ended; one that was
  computed lazily ends as well when a step of it fails.
-/
import Cursors.Workspace.Callback

namespace Cursors.Workspace

/-! ## §1. Subscripts of scripted classes. -/

/-- The element of an object under a subscript. -/
def lookUp (run : Runner) (fuel : Nat) (lookup : Lookup Expr) (index : Value) :
    Act Store Value := do
  match lookup with
  | .fails cause => Act.fail cause
  | .byPosition items =>
      match index.integer? with
      | none => wrongType
      | some i =>
          match (Place.index? items.length i).bind (items[·]?) with
          | some item => produce run item
          | none => Act.fail (.refused .index)
  | .byKey entries => go entries index
where
  /-- The value of the first entry with this key. -/
  go : List (Expr × Expr) → Value → Act Store Value
    | [], _ => Act.fail (.raised "KeyError" (some "missing"))
    | (key, e) :: rest, index => do
        let k ← run (.evaluate key)
        if ← equal run fuel k index then run (.evaluate e) else go rest index

/-- The element of a value under a subscript. -/
def elementOn (run : Runner) (fuel : Nat) (v index : Value) : Act Store Value := do
  match ← Act.reading (·.cell? v) with
  | some (.custom record _) =>
      match record.spec.lookup with
      | some lookup => lookUp run fuel lookup index
      | none => wrongType
  | _ => elementAt v index

/-! ## §2. Starting a walk. -/

/-- The number by which a change of a collection is noticed. -/
def Cell.stamp : Cell → Nat
  | .deque _ changes => changes
  | .set _ t => t.size
  | .dict table => table.size
  | _ => 0

/-- Whether a value can be asked for a next element. -/
def Store.canAdvance (s : Store) (v : Value) : Bool :=
  match s.cell? v with
  | some (.stream _) | some (.iterator _) => true
  | some (.custom record _) => record.spec.next.isSome
  | _ => false

/-- Whether a value has the operation for a next element, though a class itself refuses it. -/
def Store.hasAdvance (s : Store) (v : Value) : Bool :=
  match s.cell? v with
  | some (.type record) => record.spec.next.isSome
  | _ => s.canAdvance v

/-- Start a walk over a value. -/
def startWalk (run : Runner) (v : Value) : Act Store Value := do
  let byPosition : Act Store Value := Store.alloc (.stream (.walk v 0))
  match v, ← Act.reading (·.cell? v) with
  | .text _, _ => byPosition
  | .object id, some c =>
      match c with
      | .stream _ | .iterator _ => return v
      | .list _ | .tuple _ | .bytes .. | .range .. | .packed .. => byPosition
      | .grid _ (_ :: _) _ _ => byPosition
      | .deque .. | .set .. => Store.alloc (.stream (.stamped id 0 (some c.stamp)))
      | .dict table => Store.alloc (.stream (.table id 0 (some c.stamp) table.size false))
      | .custom record _ =>
          match record.spec.member? .iter with
          | some member => do
              let w ← callMember run member
              if ← Act.reading (·.canAdvance w) then return w else wrongType
          | none =>
              if record.spec.lookup.isSome then Store.alloc (.stream (.subscripts v 0))
              else wrongType
      | _ => wrongType
  | _, _ => wrongType

/-! ## §3. One step of a walk. -/

/-- End a walk. -/
def finish (id : Id) : Act Store Value := do
  Store.put id (.stream .finished)
  Act.fail .ended

/-- A step of the lazily computed walk `id`: while it lasts the walk is busy, a failure ends the
walk, and an end inside of it is reported as such. -/
def lazily {α : Type} (id : Id) (x : Act Store α) : Act Store α := do
  Store.put id (.stream .busy)
  match ← Act.attempt (fun _ => true) x.sealed with
  | .ok a => return a
  | .error e => do
      Store.put id (.stream .finished)
      Act.fail e

/-- A step of a walk over a queue or a set under a stamp. -/
def stampedStep (id container : Id) (index : Nat) (stamp : Option Nat) : Act Store Value := do
  match ← Act.reading (·.cells[container]?) with
  | none => finish id
  | some c =>
      if stamp ≠ some c.stamp then
        -- Without a stamp every later step fails as well.
        Store.put id (.stream (.stamped container index none))
        Act.fail (.refused .runtime)
      else
        match c with
        | .deque items _ =>
            match items[index]? with
            | some x => do
                Store.put id (.stream (.stamped container (index + 1) stamp))
                return x
            -- The end of a queue is not final: a later change is still noticed.
            | none => Act.fail .ended
        | .set _ t =>
            match t.memberFrom index with
            | some (x, slot) => do
                Store.put id (.stream (.stamped container (slot + 1) stamp))
                return x
            | none => finish id
        | _ => finish id

/-- A step of a walk over a dictionary. -/
def tableStep (id container : Id) (slot : Nat) (stamp : Option Nat) (left : Nat)
    (values : Bool) : Act Store Value := do
  match ← Act.reading (·.cells[container]?) with
  | some (.dict table) =>
      if stamp ≠ some table.size then
        Store.put id (.stream (.table container slot none left values))
        Act.fail (.refused .runtime)
      else
        match table.entryFrom slot, left with
        | some ((k, x), following), left + 1 => do
            Store.put id (.stream (.table container following stamp left values))
            return if values then x else k
        -- More entries than there were: the keys changed though their number did not.
        | some _, 0 => do
            Store.put id (.stream .finished)
            Act.fail (.refused .runtime)
        | none, _ => finish id
  | _ => finish id

/-- The next element of the walk `id`. -/
def streamStep (run : Runner) (id : Id) : Stream → Act Store Value
  | .finished => Act.fail .ended
  | .busy => Act.fail (.refused .value)
  | .walk container index => do
      if index < (← Act.reading (·.length? container)).getD 0 then
        let x ← elementAt container (.int index)
        Store.put id (.stream (.walk container (index + 1)))
        return x
      else finish id
  | .stamped container index stamp => stampedStep id container index stamp
  | .table container slot stamp left values => tableStep id container slot stamp left values
  | .subscripts container index => do
      match ← Act.attempt (fun e => e.isEnd || e.isOutside)
          (run (.element container (.int index))) with
      | .ok x => do
          -- The subscript may have advanced this very walk.
          match ← Act.reading (·.cells[id]?) with
          | some (.stream (.subscripts _ present)) =>
              Store.put id (.stream (.subscripts container (present + 1)))
          | _ => pure ()
          return x
      | .error _ => finish id
  | .count next step => do
      Store.put id (.stream (.count (← combine .plus next step) step))
      return next
  | .lookups _ [] => finish id
  | .lookups container (key :: keys) => do
      let x ← lazily id (run (.element container key))
      Store.put id (.stream (.lookups container keys))
      return x
  | .entries container keys => do
      let keys ← match keys with
        | some keys => pure keys
        | none => lazily id (run (.walk container))
      Store.put id (.stream .busy)
      match ← Act.attempt (fun _ => true) (run (.advance keys)) with
      | .error e => do
          Store.put id (.stream .finished)
          Act.fail (if e.isEnd then .ended else e)
      | .ok key => do
          let x ← lazily id (run (.element container key))
          Store.put id (.stream (.entries container (some keys)))
          return x

end Cursors.Workspace
