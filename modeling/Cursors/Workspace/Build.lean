/-
  Cursors.Workspace.Build
  ───────────────────────
  **BUILDING ITERATORS.**

  The arguments of a new iterator are checked in a fixed order, so that of
  two faults always the same one is reported.  Iterators that call
  functions of the user remember the place where they were created.
-/
import Cursors.Workspace.Ask
import Cursors.Workspace.CallSite
import Cursors.Workspace.Conversion

namespace Cursors.Workspace

/-! ## §1. Checks. -/

/-- Fail unless an argument can be called. -/
def needCallable (v : Value) (name : String) : Act Store Unit := do
  if ← Act.reading (·.isCallable v) then pure () else Act.fail (.notCallable name)

/-- Fail unless an argument that is given can be called. -/
def needCallableIfPresent (v : Value) (name : String) : Act Store Unit :=
  if v = .null then pure () else needCallable v name

/-- Fail unless an argument is an iterator that goes in both directions. -/
def needTwoWay (v : Value) : Act Store Unit := do
  if ← Act.reading (·.isTwoWay v) then pure () else Act.fail .notBidirectional

/-! ## §2. Over containers. -/

/-- A new iterator. -/
def newIterator (it : Iterator) : Act Store Value := Store.alloc (.iterator it)

/-- A cursor in a container. -/
def newCursor (items start : Value) : Act Store Value := do
  needPresent items "sequence"
  if start.integer?.isNone then Act.fail (.notInteger "start must be an integer")
  match start.place? with
  | none => Act.fail .startOutside
  | some p => do
      -- The size is asked for last, and only if the position may be inside.
      if p.toInt > (← sizeOf items) then Act.fail .startOutside
      newIterator (.cursor items { position := p })

/-- The window on a container from one position up to another, by default up to its end. -/
def windowOf (items start stop : Value) : Act Store Window := do
  needPresent items "array"
  let size ← sizeOf items
  let stop := if stop = .null then .int size else stop
  match start.integer?, stop.integer? with
  | some a, some b => do
      Act.ofExcept (Window.checkBounds size a b)
      return .fresh (start.place?.getD default) (stop.place?.getD default)
  | _, _ => Act.fail (.notInteger "start and end must be integers")

/-- A window on a container. -/
def newWindow (items start stop : Value) : Act Store Value := do
  newIterator (.window items (← windowOf items start stop))

/-- A window on a container, in both directions. -/
def newListWindow (items start stop : Value) : Act Store Value := do
  newIterator (.listWindow items { window := ← windowOf items start stop })

/-- A ring over a collection: by position if its elements have positions. -/
def newRing (run : Runner) (items : Value) : Act Store Value := do
  needPresent items "collection"
  let size ← sizeOf items
  if ← Act.reading (·.isSequence items) then newIterator (.ring items { expected := size })
  else do
    let walk ← run (.walk items)
    newIterator (.cycle items { expected := size, walk := walk })

/-- A ring over a list, in both directions. -/
def newListRing (items : Value) : Act Store Value := do
  needPresent items "sequence"
  newIterator (.listRing items { expected := ← sizeOf items })

/-! ## §3. Over other iterators. -/

/-- A read-only view. -/
def newReadOnly (run : Runner) (source : Value) : Act Store Value := do
  newIterator (.readOnly (← adapt run source))

/-- A read-only view in both directions. -/
def newReadOnlyList (source : Value) : Act Store Value := do
  needPresent source "iterator"
  needTwoWay source
  newIterator (.readOnlyList source)

/-- A filter. -/
def newFilter (run : Runner) (source predicate : Value) : Act Store Value := do
  needPresent source "iterator"
  needCallable predicate "predicate"
  let source ← adapt run source
  newIterator (.filter source predicate (← Act.reading Store.creation) {})

/-- A filter in both directions. -/
def newListFilter (source predicate : Value) : Act Store Value := do
  needPresent source "iterator"
  needCallable predicate "predicate"
  needTwoWay source
  newIterator (.listFilter source predicate (← Act.reading Store.creation) {})

/-- A transformation. -/
def newTransform (run : Runner) (source function : Value) : Act Store Value := do
  needPresent source "iterator"
  needCallable function "f"
  let source ← adapt run source
  newIterator (.transform source function (← Act.reading Store.creation))

/-- A chain of the elements of a value. -/
def newChain (run : Runner) (fuel : Nat) (sources : Value) : Act Store Value := do
  needPresent sources "iterators"
  let members ← collect run fuel sources (membersFor run)
  newIterator (.chain { members := members.flatten })

/-- A chain of values. -/
def newChainOf (run : Runner) (sources : List Value) : Act Store Value := do
  let members ← sources.mapM (membersFor run)
  newIterator (.chain { members := members.flatten })

/-- A merge of the elements of a value under a comparator. -/
def newMerge (run : Runner) (fuel : Nat) (comparator sources : Value) : Act Store Value := do
  needPresent sources "iterators"
  needCallableIfPresent comparator "comparator"
  let sources ← collect run fuel sources (adapt run)
  -- All sources are adapted before they are counted.
  if sources.length < 2 then Act.fail .tooFewSources
  newIterator (.merge sources comparator (Merge.start sources.length))

/-- A flattening of a value under a classifier. -/
def newFlatten (root classifier : Value) : Act Store Value := do
  needCallableIfPresent classifier "classifier"
  newIterator (.flatten classifier (← Act.reading Store.creation)
    { root := if root = .null then none else some root })

/-- A buffer. -/
def newBuffer (run : Runner) (source strict : Value) : Act Store Value := do
  let source ← adapt run source
  newIterator (.buffer source strict {})

/-! ## §4. Other functions. -/

/-- All elements of a value, as a list. -/
def newList (run : Runner) (fuel : Nat) (source estimate : Value) : Act Store Value := do
  needPresent source "iterator"
  match estimate.integer? with
  | none => Act.fail (.notInteger "estimated_size must be an integer")
  | some n => do
      if n < 1 then Act.fail .sizeNotPositive
      Store.alloc (.list (← drain run fuel source))

/-- The error mode, after it was set to the one of this name, if one is given. -/
def errorMode (run : Runner) (fuel : Nat) (name : Value) : Act Store Value := do
  match name with
  | .null => pure ()
  | .text "wrap" => Act.update ({ · with mode := .wrap })
  | .text "passthrough" => Act.update ({ · with mode := .passthrough })
  | _ => do
      -- A grid may not be able to tell whether it is one of these.
      discard (equal run fuel name .null)
      Act.fail .unknownMode
  return .text (← Act.reading (·.mode)).name

/-- The text of the present call frames without the innermost ones. -/
def callSiteText (skip : Value) : Act Store Value := do
  match (← combine .plus skip (.int 1)).integer? with
  | some n => return .text (← Act.reading (·.callSite n))
  | none => wrongType

/-- Call a function on an element on behalf of a value, which has to know where it was created
if there is something to report. -/
def evaluateFor (run : Runner) (owner function x : Value) : Act Store Value := do
  let s ← Act.reading (fun s => s)
  guarded run (s.typeName owner) ((s.iterator? owner).bind Iterator.created?) function x

/-- The line that a value is. -/
def lineOf (v : Value) : Act Store String := do
  match v with
  | .text line => return line
  | _ =>
      discard (sizeOf v)
      match ← Act.reading (·.cell? v) with
      | some (.bytes .view _) => noSuchOperation
      | some (.bytes ..) => wrongType
      | _ => noSuchOperation

/-- The elements of a value, which are lines, moved to the left by their common margin. -/
def unindentAll (run : Runner) (fuel : Nat) (lines : Value) : Act Store Value := do
  if ← truthOf lines then
    let texts ← collect run fuel lines lineOf
    if texts.isEmpty then Act.fail (.refused .value)
    let moved ← collect run fuel lines fun x => do
      return Value.text (withoutMargin (margin texts) (← lineOf x))
    Store.alloc (.list moved)
  else Store.alloc (.list [])

/-- A check of an argument whose name is the value `name`. -/
def checkNamed (name : Value) (ok : Bool) (check : String → Act Store Unit) :
    Act Store Value := do
  match name with
  | .text name => check name
  | _ => if ok then pure () else wrongType
  return .null

/-! ## §5. The recipes. -/

/-- Carry out a recipe. -/
def build (run : Runner) (fuel : Nat) : Recipe → List Value → Act Store Value
  | .adapted, [x] => adapt run x
  | .peek, [x] => peekOver run x
  | .sharedEmpty, [] => pure Store.emptyIterator
  | .empty, [] => newIterator .empty
  | .single, [x] | .removableSingle, [x] => newIterator (.single (.bool true) { item := x })
  | .removableSingle, [x, removable] => newIterator (.single removable { item := x })
  | .listSingle, [x] => newIterator (.listSingle { item := x })
  | .window, [x] => newWindow x (.int 0) .null
  | .window, [x, start] => newWindow x start .null
  | .window, [x, start, stop] => newWindow x start stop
  | .listWindow, [x] => newListWindow x (.int 0) .null
  | .listWindow, [x, start] => newListWindow x start .null
  | .listWindow, [x, start, stop] => newListWindow x start stop
  | .cursor, [x] => newCursor x (.int 0)
  | .cursor, [x, start] => newCursor x start
  | .lent, [x] => do
      match ← Act.reading (·.iterator? x) with
      | some (.readOnly _) => return x
      | _ => newReadOnly run x
  | .readOnly, [x] => newReadOnly run x
  | .lentList, [x] => do
      match ← Act.reading (·.iterator? x) with
      | some (.readOnlyList _) => return x
      | _ => newReadOnlyList x
  | .readOnlyList, [x] => newReadOnlyList x
  | .filter, [x, predicate] => newFilter run x predicate
  | .listFilter, [x, predicate] => newListFilter x predicate
  | .transform, [x, function] => newTransform run x function
  | .chainOf, xs => newChainOf run xs
  | .chain, [] => newChainOf run []
  | .chain, [xs] => newChain run fuel xs
  | .mergeOf, [xs] => newMerge run fuel .null xs
  | .mergeOf, [xs, comparator] | .merge, [comparator, xs] => newMerge run fuel comparator xs
  | .ring, [xs] => newRing run xs
  | .listRing, [xs] => newListRing xs
  | .flatten, [root] => newFlatten root .null
  | .flatten, [root, classifier] => newFlatten root classifier
  | .buffer, [x] => newBuffer run x (.bool false)
  | .buffer, [x, strict] => newBuffer run x strict
  | .suitable, [x] => suitableIterator run fuel x
  | .list, [x] => newList run fuel x (.int 10)
  | .list, [x, estimate] => newList run fuel x estimate
  | .errorMode, [] => errorMode run fuel .null
  | .errorMode, [name] => errorMode run fuel name
  | .callSite, [] => callSiteText (.int 1)
  | .callSite, [skip] => callSiteText skip
  | .unindent, [lines] => unindentAll run fuel lines
  | .isInteger, [x] => pure (.bool x.integer?.isSome)
  | .plain, [x] => plainValue run fuel x
  | .order, [x, y] => do return .int (← naturalOrder run fuel x y)
  | .present, [x, name] => checkNamed name (x ≠ .null) (needPresent x)
  | .callable, [f, name] => do
      checkNamed name (← Act.reading (·.isCallable f)) (needCallable f)
  | .evaluate, [owner, function, x] => evaluateFor run owner function x
  | .suitableForAny, [x] => suitableForAny run fuel x
  | .ownIterator, [x] => do return (← lookUpIterator run x).getD .null
  | _, _ => wrongType

end Cursors.Workspace
