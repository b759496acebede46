/-
  Cursors.Workspace.Conversion
  ────────────────────────────
  **A SUITABLE ITERATOR FOR ANY VALUE.**

  Iterators stand for themselves, collections and arrays are walked, maps
  give their values, and other values are asked for their elements in
  several ways, one after the other.  A way that fails is noted and passed
  over; what has no elements at all is given as the only element.  The
  failures of collections and maps themselves are not passed over.
-/
import Cursors.Workspace.Interface

namespace Cursors.Workspace

/-! ## §1. What a value has. -/

/-- Which of the members that lead to elements a value has, absent ones included. -/
structure Outfit where
  lookup : Bool := false
  walk : Bool := false
  keys : Bool := false
  deriving DecidableEq, Repr

/-- The members of the objects of a class, and of the class. -/
def ClassRecord.outfit (r : ClassRecord) : Outfit where
  lookup := r.spec.lookup.isSome || r.spec.mapping
  walk := r.has .iter
  keys := r.has .keys

/-- The members of a value that is neither an iterator nor a collection. -/
def Store.outfit (s : Store) (v : Value) : Outfit :=
  match s.cell? v with
  | some (.builtin name) => { lookup := true, walk := true, keys := name == "dict" }
  | some (.type record) | some (.custom record _) => record.outfit
  | _ => {}

/-! ## §2. Notes. -/

/-- Note that a way to the elements of a value failed. -/
def noteFailed (way : String) (v : Value) (e : Failure) : Act Store Unit := do
  let name ← Act.reading (·.typeName v)
  Store.emit (.logged ("ignoring failed " ++ way ++ " on " ++ name ++ ": " ++ e.summary))

/-- Note that a value gave something else than an iterator. -/
def noteNoIterator (given v : Value) : Act Store Unit := do
  let s ← Act.reading (fun s => s)
  Store.emit (.logged
    ("ignoring non iterator " ++ s.typeName given ++ " returned by " ++ s.typeName v))

/-! ## §3. Ways to the elements. -/

/-- The iterator over a value alone. -/
def singleOver (v : Value) : Act Store Value :=
  Store.alloc (.iterator (.single (.bool true) { item := v }))

/-- The keys of an object. -/
def keysOf (run : Runner) (fuel : Nat) (v : Value) : Act Store (List Value) := do
  match ← Act.reading (·.cell? v) with
  | some (.custom record _) =>
      match record.spec.member? .keys with
      | some member => do drain run fuel (← callMember run member)
      | none => wrongType
  | _ => wrongType

/-- What the value itself gives for an iterator, if it has a way to. -/
def ownIterator (run : Runner) (v : Value) : Act Store (Option Value) := do
  match ← Act.reading (·.cell? v) with
  | some (.custom record _) =>
      match record.spec.member? .iterator, record.provides .iterator with
      | some member, true => do return some (← callMember run member)
      | _, _ => walkOver
  | some (.type record) => if record.provides .iterator then wrongType else return none
  -- The member is there, and is an iterator itself instead of a way to one.
  | some (.iterator it) => if it.showsSource then wrongType else walkOver
  | _ => walkOver
where
  /-- The walk over the value, if it can be walked. -/
  walkOver : Act Store (Option Value) := do
    if ← Act.reading (·.isIterable v) then return some (← run (.walk v)) else return none

/-- The iterator that a value gives, unless it fails or gives something else. -/
def lookUpIterator (run : Runner) (v : Value) : Act Store (Option Value) := do
  match ← Act.attempt Failure.isOrdinary (ownIterator run v) with
  | .error e => do
      noteFailed "iterator lookup" v e
      return none
  | .ok none => return none
  | .ok (some given) =>
      if ← Act.reading (·.isIterator given) then return some given
      else do
        noteNoIterator given v
        return none

/-- The iterator that a value gives, or else the one over the value alone. -/
def fromOwnIterator (run : Runner) (v : Value) : Act Store Value := do
  match ← lookUpIterator run v with
  | some it => return it
  | none => singleOver v

/-- The elements under the keys of a value, if it has both; else as a last way its own
iterator. -/
def fromKeys (run : Runner) (fuel : Nat) (v : Value) : Act Store Value := do
  let has ← Act.reading (·.outfit v)
  if has.keys && has.lookup then
    -- The keys are all taken at once, the elements one by one later.
    match ← Act.attempt Failure.isOrdinary (keysOf run fuel v) with
    | .ok keys => Store.alloc (.stream (.lookups v keys))
    | .error e => do
        noteFailed "keys lookup" v e
        fromOwnIterator run v
  else fromOwnIterator run v

/-- The elements under the subscripts of a value, if it has nothing else; else the elements
under its keys. -/
def fromSubscripts (run : Runner) (fuel : Nat) (v : Value) : Act Store Value := do
  let has ← Act.reading (·.outfit v)
  if has.lookup && !has.walk && !has.keys then
    match ← Act.attempt Failure.isOrdinary (run (.walk v)) with
    | .ok walk => Store.alloc (.iterator (.peek walk {}))
    | .error e => do
        noteFailed "item iteration" v e
        fromKeys run fuel v
  else fromKeys run fuel v

/-! ## §4. Conversion. -/

/-- The iterator over the values of an object that is a map. -/
def mapValues (run : Runner) (record : ClassRecord) (v : Value) : Act Store Value := do
  match record.spec.member? .values with
  | some member => do run (.walk (← callMember run member))
  | none => Store.alloc (.stream (.entries v none))

/-- A suitable iterator for an object of a scripted class. -/
def objectIterator (run : Runner) (fuel : Nat) (record : ClassRecord) (v : Value) :
    Act Store Value :=
  if record.spec.mapping then mapValues run record v
  -- Both an iterator and a collection: neither choice is better.
  else if record.isIterator && record.isCollection then Act.fail (.refused .runtime)
  else if record.isIterator then pure v
  else if record.isCollection then run (.walk v)
  else fromSubscripts run fuel v

/-- The window on all of a container. -/
def windowOver (v : Value) : Act Store Value := do
  let size ← sizeOf v
  Store.alloc (.iterator (.window v (.fresh (.plain 0) (.plain size))))

/-- A suitable iterator for any value. -/
def suitableIterator (run : Runner) (fuel : Nat) (v : Value) : Act Store Value := do
  match v, ← Act.reading (·.cell? v) with
  | .null, _ => return Store.emptyIterator
  | .scalar _ content _, _ => do singleOver (← Store.number content)
  | .object id, some c =>
      match c with
      | .stream _ | .iterator _ => return v
      | .list _ | .tuple _ | .deque .. | .set .. | .range .. | .bytes .changeable _ =>
          run (.walk v)
      | .bytes .constant _ => singleOver v
      | .bytes .view _ | .packed .. | .grid _ (_ :: _) .. => windowOver v
      | .grid _ [] .. => do singleOver (← plainValue run fuel v)
      | .dict table => Store.alloc (.stream (.table id 0 (some c.stamp) table.size true))
      | .custom record _ => objectIterator run fuel record v
      | _ => fromSubscripts run fuel v
  | _, _ => singleOver v

/-- A suitable iterator for any value, a missing one included, which is given as it is. -/
def suitableForAny (run : Runner) (fuel : Nat) (v : Value) : Act Store Value :=
  if v = .null then singleOver v else suitableIterator run fuel v

end Cursors.Workspace
