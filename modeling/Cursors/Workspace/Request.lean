/-
  Cursors.Workspace.Request
  ─────────────────────────
  **REQUESTS.**

  Everything in a workspace that can lead to user code is done on request:
  a callback may ask an iterator, which calls another callback, and so on.
  The parts below answer one kind of request each and take the means of
  making further ones, a `Runner`, as an argument; they are tied together at
  the end, where the depth of requests is bounded.
-/
import Cursors.Workspace.Encode
import Cursors.Workspace.Show

namespace Cursors.Workspace

/-! ## §1. Requests. -/

/-- Something to be done in the workspace. -/
inductive Request where
  /-- Evaluate an expression. -/
  | evaluate (e : Expr)
  /-- Call a function. -/
  | apply (function : Value) (arguments : List Value)
  /-- Ask an operation of an object. -/
  | ask (target : Value) (operation : Operation) (arguments : List Value)
  /-- Take the next element. -/
  | advance (target : Value)
  /-- Start a walk over a value. -/
  | walk (target : Value)
  /-- The element under a subscript. -/
  | element (container index : Value)

/-- The means of making requests. -/
abbrev Runner := Request → Act Store Value

/-! ## §2. Small services. -/

/-- An operation that fits none of those that the value has. -/
def noSuchOperation {α : Type} : Act Store α := Act.fail (.refused .attribute)

/-- A value that does not fit. -/
def wrongType {α : Type} : Act Store α := Act.fail (.refused .type)

/-- Carry out a step of a scripted source whose values are known. -/
def Item.give {ε : Type} (f : ε → Act Store Value) : Item ε → Act Store Value
  | .value e => f e
  | .fails cause => Act.fail cause
  | .ends => Act.fail .ended

/-- Carry out a step of a scripted source. -/
def produce (run : Runner) : Item Expr → Act Store Value := Item.give fun e => run (.evaluate e)

/-- The documents of values. -/
def documentsOf (vs : List Value) : Act Store (List Document) :=
  vs.mapM documentOf

/-! ## §3. Walking to the end. -/

/-- What `f` makes of the elements of a started walk, at most `fuel` of them, put behind those
in `made`; each element is used before the next one is taken. -/
def collectWalk {β : Type} (run : Runner) (walk : Value) (f : Value → Act Store β) :
    Nat → List β → Act Store (List β)
  | 0, _ => Act.unfinished
  | fuel + 1, made => do
      match ← Act.attempt Failure.isEnd (run (.advance walk)) with
      | .ok x => do
          let y ← f x
          collectWalk run walk f fuel (y :: made)
      | .error _ => return made.reverse

/-- What `f` makes of all elements of a value. -/
def collect {β : Type} (run : Runner) (fuel : Nat) (v : Value) (f : Value → Act Store β) :
    Act Store (List β) := do
  collectWalk run (← run (.walk v)) f fuel []

/-- The number of elements for which there is no room. -/
def tooMany : Nat := Number.twoTo 36

/-- Make room for the elements of a value that announces their number. -/
def makeRoom (v : Value) : Act Store Unit := do
  if (← Act.reading (·.length? v)).isSome then
    if (← sizeOf v) ≥ tooMany then Act.fail (.refused .memory)

/-- All elements of a value. -/
def drain (run : Runner) (fuel : Nat) (v : Value) : Act Store (List Value) := do
  let walk ← run (.walk v)
  makeRoom v
  collectWalk run walk pure fuel []

end Cursors.Workspace
