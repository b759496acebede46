/-
  Cursors.Workspace.Respond
  ─────────────────────────
  **ANSWERING REQUESTS.**

  The parts of the workspace, tied together.  A request is answered with a
  bound on the depth of the requests that it may lead to, and another one on
  the length of each search.  A request that would lie deeper is refused,
  which is a failure like others; a search that is not over has no outcome.
-/
import Cursors.Workspace.Evaluate

namespace Cursors.Workspace

/-- Answer a request, given the means of making further ones. -/
def respond (run : Runner) (fuel : Nat) : Request → Act Store Value
  | .evaluate e => evaluate run fuel e
  | .apply function arguments => applyFunction run fuel function arguments
  | .ask target op arguments => askValue run fuel target op arguments
  | .advance target => advanceValue run fuel target
  | .walk target => startWalk run target
  | .element container index => elementOn run fuel container index

/-- Answer a request that leads to requests nested at most `depth` deep. -/
def invoke (fuel : Nat) : Nat → Runner
  | 0 => fun _ => Act.fail (.refused .recursion)
  | depth + 1 => fun request => respond (invoke fuel depth) fuel request

end Cursors.Workspace
