/-
  Cursors.Workspace.Operation
  ───────────────────────────
  **THE OPERATIONS THAT CAN BE ASKED OF AN OBJECT.**

  Operations are asked for by name.  A name that no object answers to is
  kept as `unknown`, so that asking for it fails like asking for a missing
  one.
-/
namespace Cursors.Workspace

/-- The operations of iterators and of containers. -/
inductive Operation where
  | advance
  | next
  | previous
  | hasNext
  | hasPrevious
  | nextIndex
  | previousIndex
  | remove
  | set
  | add
  | reset
  | size
  | addIterator
  | isLocked
  | iteratorIndex
  | append
  | pop
  | insert
  | clear
  | reverse
  | discard
  | setItem
  | unknown
  deriving DecidableEq, Repr

namespace Operation

/-- The names of the operations. -/
def names : List (String × Operation) :=
  [("__next__", .advance), ("next", .next), ("previous", .previous), ("has_next", .hasNext),
   ("has_previous", .hasPrevious), ("next_index", .nextIndex),
   ("previous_index", .previousIndex), ("remove", .remove), ("set", .set), ("add", .add),
   ("reset", .reset), ("size", .size), ("add_iterator", .addIterator),
   ("is_locked", .isLocked), ("get_iterator_index", .iteratorIndex), ("append", .append),
   ("pop", .pop), ("insert", .insert), ("clear", .clear), ("reverse", .reverse),
   ("discard", .discard), ("__setitem__", .setItem)]

/-- The operation of a name. -/
def ofName (name : String) : Operation := (names.lookup name).getD .unknown

end Operation

end Cursors.Workspace
