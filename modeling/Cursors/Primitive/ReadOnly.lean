/-
  Cursors.Primitive.ReadOnly
  ──────────────────────────
  **VIEWS THAT REFUSE EDITS.**

  A read-only view passes every move on to its source and refuses every
  edit, so that a source can be lent out without risk.
-/
import Cursors.Action

namespace Cursors

variable {σ α : Type}

/-- The read-only view of a forward source. -/
def Forward.readOnly (owner : String) (source : Forward σ α) : Forward σ α where
  hasNext := source.hasNext
  next := source.next
  remove := Act.fail (.unsupported owner .remove)

/-- The read-only view of a bidirectional source. -/
def TwoWay.readOnly (owner : String) (source : TwoWay σ α) : TwoWay σ α where
  hasNext := source.hasNext
  next := source.next
  remove := Act.fail (.unsupported owner .remove)
  hasPrevious := source.hasPrevious
  previous := source.previous
  nextIndex := source.nextIndex
  previousIndex := source.previousIndex
  set := fun _ => Act.fail (.unsupported owner .set)
  add := fun _ => Act.fail (.unsupported owner .add)

end Cursors
