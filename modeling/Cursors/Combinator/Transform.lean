/-
  Cursors.Combinator.Transform
  ────────────────────────────
  **TRANSFORMING ELEMENTS.**

  Each element of the source is passed through a function when it is asked
  for.  A removal removes the element of the source.
-/
import Cursors.Action

namespace Cursors

variable {σ α β : Type}

/-- The source of the images under `f`. -/
def Forward.transform (source : Forward σ α) (f : α → Act σ β) : Forward σ β where
  hasNext := source.hasNext
  next := do f (← source.next)
  remove := source.remove

end Cursors
