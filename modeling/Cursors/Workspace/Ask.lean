/-
  Cursors.Workspace.Ask
  ─────────────────────
  **ASKING OBJECTS FOR OPERATIONS.**

  An iterator offers the operations of its kind and no others.  An
  operation that is not offered is a missing name; one that is offered, but
  with another number of arguments, is a misfit.  Walks and scripted objects
  can only be asked for their next element.
-/
import Cursors.Workspace.Interface

namespace Cursors.Workspace

/-! ## §1. Iterators as sources. -/

/-- The scripted iterator `v` as a source: every question is recorded before it is answered. -/
def probeSource (v : Value) (owner label : String) (items : List (Item Value)) :
    TwoWay Store Value where
  hasNext := do
    Store.emit (.asked "has_next" label)
    return (← (probePart v).read) < items.length
  next := do
    Store.emit (.asked "next" label)
    let i ← (probePart v).read
    match items[i]? with
    | none => Act.fail .ended
    | some item => do
        (probePart v).write (i + 1)
        item.give pure
  remove := Act.fail (.unsupported owner .remove)
  hasPrevious := do
    Store.emit (.asked "has_previous" label)
    return (← (probePart v).read) > 0
  previous := do
    Store.emit (.asked "previous" label)
    let i ← (probePart v).read
    if i = 0 then Act.fail .ended
    else do
      (probePart v).write (i - 1)
      match items[i - 1]? with
      | none => Act.fail .ended
      | some item => item.give pure
  nextIndex := do
    Store.emit (.asked "next_index" label)
    return (← (probePart v).read)
  previousIndex := do
    Store.emit (.asked "next_index" label)
    return ((← (probePart v).read) : Int) - 1
  set := fun _ => Act.fail (.unsupported owner .set)
  add := fun _ => Act.fail (.unsupported owner .add)

/-- The two-way source that the iterator `v` is, if it goes in both directions. -/
def twoWayOf (run : Runner) (fuel : Nat) (v : Value) (it : Iterator) :
    Option (TwoWay Store Value) :=
  let owner := it.className
  match it with
  | .cursor items _ => some (Cursor.twoWay (cursorPart v) (itemsOf run items))
  | .listWindow items _ =>
      some (ListWindow.twoWay owner (listWindowPart v) (plainItemsOf run fuel items))
  | .listSingle _ => some (ListSingle.twoWay owner (listSinglePart v))
  | .readOnlyList source => some ((twoWaySourceOf run source).readOnly owner)
  | .listFilter source predicate created _ =>
      some (ListFilter.twoWay fuel (listFilterPart v) (twoWaySourceOf run source)
        (acceptsOf run owner created predicate))
  | .listRing items _ => some (ListRing.twoWay (listRingPart v) (itemsOf run items))
  | .buffer source strict _ =>
      some (Buffer.twoWay (truthOf strict) (bufferPart v) (sourceOf run source))
  | .probe true label items _ => some (probeSource v owner label items)
  | _ => none

/-- What a chain notes when it is used first. -/
def noteLocked (count : Nat) : Act Store Unit :=
  Store.emit (.logged ("locking chain of " ++ toString count ++ " iterators"))

/-- The refusal of a looping iterator whose collection cannot lose elements. -/
def refuseFixedSize (items : Value) : Act Store Unit := do
  Act.fail (.fixedSize (← Act.reading (·.typeName items)))

/-- The source that the iterator `v` is. -/
def forwardOf (run : Runner) (fuel : Nat) (v : Value) (it : Iterator) : Forward Store Value :=
  let owner := it.className
  match it with
  | .peek source _ => Peek.forward owner (peekPart v) (run (.advance source))
  -- Windows give scalars as plain values.
  | .window items _ => Window.forward owner (windowPart v) (plainItemsOf run fuel items)
  | .single removable _ => Single.forward owner (truthOf removable) (singlePart v)
  | .readOnly source => (sourceOf run source).readOnly owner
  | .filter source predicate created _ =>
      Filter.forward fuel (filterPart v) (sourceOf run source)
        (acceptsOf run owner created predicate)
  | .transform source function created =>
      (sourceOf run source).transform (guarded run owner (some created) function)
  | .chain _ => Chain.forward (chainPart v) (sourceOf run) noteLocked
  | .merge sources comparator _ =>
      Merge.forward (mergePart v) (sources.map (sourceOf run)) (precedesOf run fuel comparator)
  | .ring items _ =>
      let ring := Ring.forward (ringPart v) (itemsOf run items)
      { ring with
        remove := do
          if ← Act.reading (·.isMutableSequence items) then ring.remove
          else refuseFixedSize items }
  | .cycle items _ =>
      { hasNext := Cycle.hasNext (cyclePart v) (sizeOf items)
        next := Cycle.next (cyclePart v) (sizeOf items) (run (.walk items))
          fun walk => run (.advance walk)
        remove := refuseFixedSize items }
  | .flatten classifier created _ =>
      Flatten.forward owner fuel (flattenPart v) (nestingOf run owner created classifier)
  | .probe _ label items _ => (probeSource v owner label items).toForward
  | it => ((twoWayOf run fuel v it).map TwoWay.toForward).getD Forward.empty

/-! ## §2. Answers. -/

/-- Whether an iterator answers with a scalar whether it can move, `back` or ahead.  Iterators
that pass the question on are followed over at most `links` of them. -/
def Store.answersInScalars (s : Store) (back : Bool) : Nat → Value → Bool
  | 0, _ => false
  | links + 1, v =>
      let ofWindow (w : Window) : Bool := w.start.isFixed || (!back && w.stop.isFixed)
      match s.iterator? v with
      | some (.cursor _ c) => c.position.isFixed
      | some (.window _ w) | some (.listWindow _ ⟨w, _⟩) => ofWindow w
      | some (.readOnly x) | some (.readOnlyList x) | some (.transform x ..) =>
          s.answersInScalars back links x
      | some (.chain c) => (c.current.map (s.answersInScalars back links)).getD false
      | some (.buffer x _ b) =>
          !back && b.kept.length ≤ b.position && s.answersInScalars back links x
      | _ => false

/-- The truth value with which the iterator `v` answers whether it can move. -/
def verdict (v : Value) (back b : Bool) : Act Store Value := Act.reading fun s =>
  if s.answersInScalars back s.levels v then .scalar .bool (.bool b) 0 else .bool b

/-- The position from which an iterator computes indexes, over at most `links` views. -/
def Store.indexBase (s : Store) : Nat → Value → Place
  | 0, _ => .plain 0
  | links + 1, v =>
      match s.iterator? v with
      | some (.cursor _ c) => c.position
      -- A difference of truth values is an integer.
      | some (.listWindow _ ⟨w, _⟩) => if w.start.isFixed then w.start else .plain 0
      | some (.readOnlyList x) => s.indexBase links x
      | _ => .plain 0

/-- A number computed from a position, as a value. -/
def computedFrom (p : Place) (n : Int) : Value :=
  match p with
  | .fixed width _ => .scalar (.integer width) (.int (width.wrap n)) 0
  | _ => .int n

/-- The index `n` with which the iterator `v` answers. -/
def indexValue (v : Value) (n : Int) : Act Store Value := Act.reading fun s =>
  match s.indexBase s.levels v with
  | .truth b => .bool b
  | p => computedFrom p n

/-- The index `n` with which the iterator `v` answers, one less than another one. -/
def indexBefore (v : Value) (n : Int) : Act Store Value := Act.reading fun s =>
  computedFrom (s.indexBase s.levels v) n

/-! ## §3. The operations of iterators. -/

/-- Whether an iterator offers an operation. -/
def Iterator.offers (it : Iterator) : Operation → Bool
  | .advance | .next | .hasNext | .remove => true
  | .previous | .hasPrevious | .nextIndex | .previousIndex | .set | .add => it.isTwoWay
  | .reset => it.isResettable
  | .size =>
      match it with
      | .ring .. | .cycle .. | .listRing .. | .chain _ => true
      | _ => false
  | .addIterator | .isLocked =>
      match it with
      | .chain _ => true
      | _ => false
  | .iteratorIndex =>
      match it with
      | .merge .. => true
      | _ => false
  | _ => false

/-- Send the iterator `v` back to its start. -/
def resetIterator (run : Runner) (v : Value) : Iterator → Act Store Unit
  | .cursor .. => Cursor.reset (cursorPart v)
  | .window .. => Window.reset (windowPart v)
  | .listWindow .. => ListWindow.reset (listWindowPart v)
  | .single .. => Single.reset (singlePart v)
  | .listSingle _ => ListSingle.reset (listSinglePart v)
  | .ring .. => Ring.reset (ringPart v)
  | .cycle items _ => Cycle.reset (cyclePart v) (run (.walk items))
  | .listRing .. => ListRing.reset (listRingPart v)
  | .buffer .. => Buffer.reset (bufferPart v)
  | _ => pure ()

/-- The number of elements, or of members, of an iterator that tells it. -/
def iteratorSize : Iterator → Act Store Nat
  | .ring items _ | .cycle items _ | .listRing items _ => sizeOf items
  | .chain state => pure state.members.length
  | _ => noSuchOperation

/-- What a chain takes up for a new member: the members of a chain that was not used yet, else
the member itself. -/
def membersFor (run : Runner) (v : Value) : Act Store (List Value) := do
  needPresent v "iterator"
  match ← Act.reading (·.iterator? v) with
  | some (.chain inner) =>
      if inner.locked then return [v] else return inner.members
  | _ => return [← adapt run v]

/-- Add a member to the chain `chain`. -/
def addMember (run : Runner) (chain member : Value) : Act Store Unit :=
  Chain.extend (chainPart chain) (membersFor run member)

/-- Ask the iterator `v` for an operation that goes in both directions. -/
def askTwoWay (v : Value) (source : TwoWay Store Value) :
    Operation → List Value → Act Store Value
  | .previous, [] => source.previous
  | .hasPrevious, [] => do verdict v true (← source.hasPrevious)
  | .nextIndex, [] => do indexValue v (← source.nextIndex)
  | .previousIndex, [] => do indexBefore v (← source.previousIndex)
  | .set, [x] => do
      source.set x
      return .null
  | .add, [x] => do
      source.add x
      return .null
  | _, _ => wrongType

/-- Ask the iterator `v` for an operation. -/
def askIterator (run : Runner) (fuel : Nat) (v : Value) (it : Iterator) (op : Operation)
    (arguments : List Value) : Act Store Value := do
  if !it.offers op then noSuchOperation
  else
    match op, arguments with
    | .advance, [] | .next, [] => (forwardOf run fuel v it).next
    | .hasNext, [] => do verdict v false (← (forwardOf run fuel v it).hasNext)
    | .remove, [] => do
        (forwardOf run fuel v it).remove
        return .null
    | .reset, [] => do
        resetIterator run v it
        return .null
    | .size, [] => do return .int (← iteratorSize it)
    | .addIterator, [x] => do
        addMember run v x
        return .null
    | .isLocked, [] => do return .bool (← (chainPart v).read).locked
    | .iteratorIndex, [] => do return .int (← Merge.lastIndex (mergePart v))
    | op, arguments =>
        match twoWayOf run fuel v it with
        | some source => askTwoWay v source op arguments
        | none => wrongType

/-! ## §4. The operations of other objects. -/

/-- The next element of the object `id` of a scripted class that has given `given` so far. -/
def objectStep (run : Runner) (id : Id) (record : ClassRecord) (given : Nat) :
    Act Store Value :=
  match record.spec.next with
  | none => wrongType
  | some items =>
      match items[given]? with
      | none => Act.fail .ended
      | some item => do
          Store.put id (.custom record (given + 1))
          produce run item

/-- The next element of a value. -/
def advanceValue (run : Runner) (fuel : Nat) (v : Value) : Act Store Value := do
  match v, ← Act.reading (·.cell? v) with
  | .object id, some (.stream stream) => streamStep run id stream
  | _, some (.iterator it) => askIterator run fuel v it .advance []
  | .object id, some (.custom record given) => objectStep run id record given
  | _, _ => wrongType

/-- Ask a value for an operation. -/
def askValue (run : Runner) (fuel : Nat) (v : Value) (op : Operation)
    (arguments : List Value) : Act Store Value := do
  match ← Act.reading (·.iterator? v), op, arguments with
  | some it, _, _ => askIterator run fuel v it op arguments
  | none, .advance, [] => advanceValue run fuel v
  | none, .advance, _ => wrongType
  | none, _, _ => containerOperation run fuel v op arguments

end Cursors.Workspace
