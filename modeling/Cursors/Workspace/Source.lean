/-
  Cursors.Workspace.Source
  ────────────────────────
  **VALUES AS SOURCES AND CONTAINERS.**

  An iterator of a workspace asks its sources by requests, and works on its
  container through the operations of containers.  Any value that can be
  walked becomes a source with look-ahead.
-/
import Cursors.Workspace.Editing

namespace Cursors.Workspace

/-! ## §1. Sources. -/

/-- A source with look-ahead, by requests. -/
def sourceOf (run : Runner) (v : Value) : Forward Store Value where
  hasNext := do truthOf (← run (.ask v .hasNext []))
  next := run (.advance v)
  remove := do discard (run (.ask v .remove []))

/-- The integer that an operation answered. -/
def integerOf (v : Value) : Act Store Int :=
  match v.integer? with
  | some n => pure n
  | none => wrongType

/-- A source that goes in both directions, by requests. -/
def twoWaySourceOf (run : Runner) (v : Value) : TwoWay Store Value where
  toForward := sourceOf run v
  hasPrevious := do truthOf (← run (.ask v .hasPrevious []))
  previous := run (.ask v .previous [])
  nextIndex := do integerOf (← run (.ask v .nextIndex []))
  previousIndex := do integerOf (← run (.ask v .previousIndex []))
  set := fun x => do discard (run (.ask v .set [x]))
  add := fun x => do discard (run (.ask v .add [x]))

/-! ## §2. Containers. -/

/-- A container by positions. -/
def itemsOf (run : Runner) (v : Value) : Sequence Store Value where
  length := sizeOf v
  get := fun p => run (.element v (.ofPlace p))
  set := fun p x => storeAt v (.ofPlace p) x
  delete := fun p => deleteAt v (.ofPlace p)
  insert := fun p x => insertAt v p.toInt x

/-! ## §3. Look-ahead over any value. -/

/-- Fail unless an argument is there. -/
def needPresent (v : Value) (name : String) : Act Store Unit :=
  if v = .null then Act.fail (.missing name) else pure ()

/-- A look-ahead over a walk over a value. -/
def peekOver (run : Runner) (v : Value) : Act Store Value := do
  needPresent v "iterator"
  let walk ← run (.walk v)
  Store.alloc (.iterator (.peek walk {}))

/-- The source with look-ahead for a value: itself if it is one, else a look-ahead over it. -/
def adapt (run : Runner) (v : Value) : Act Store Value := do
  if ← Act.reading (·.looksAhead v) then return v else peekOver run v

/-! ## §4. Members of scripted classes. -/

/-- Call a member of an object.  Items that it gives are all computed at the call. -/
def callMember (run : Runner) : Member Expr → Act Store Value
  | .gives items => do
      let row ← Store.alloc (.list (← items.mapM (produce run)))
      Store.alloc (.stream (.walk row 0))
  | .returns e => run (.evaluate e)
  | .fails cause => Act.fail cause
  | .plain _ | .uncallable | .absent => wrongType

end Cursors.Workspace
