/-
  Cursors.Combinator.Flatten
  ──────────────────────────
  **THE LEAVES OF A NESTED STRUCTURE.**

  A flattening examines values one at a time.  Each is classified, and the
  classified value is either a leaf, which is given out, or a branch, whose
  elements are examined next.  The branches that are not yet exhausted form
  a stack, the deepest on top, so that leaves come out depth first and from
  left to right and no branch is read before its turn.

  Branches are named by `ι`; what a name stands for is given by
  `at : ι → Forward σ α`, and `Nesting.branch` says which values are branches.
-/
import Cursors.Action

namespace Cursors

/-- The state of a flattening: the root until it was examined, the open branches, and the leaf
found ahead. -/
structure Flatten (ι α : Type) where
  root : Option α := none
  started : Bool := false
  stack : List ι := []
  ahead : Option α := none
  deriving Repr, DecidableEq

/-- How values nest. -/
structure Nesting (σ ι α : Type) where
  /-- What is examined in place of a value. -/
  classify : α → Act σ α
  /-- The branch that a value is, if it is one. -/
  branch : α → Act σ (Option ι)
  /-- A branch that holds just this value. -/
  single : α → Act σ ι
  /-- The elements of a branch. -/
  elements : ι → Forward σ α

namespace Flatten

variable {σ ι α : Type}

/-- Open the root: its own elements if it is a branch, else the root alone. -/
def start (self : Field σ (Flatten ι α)) (nesting : Nesting σ ι α) : Act σ Unit := do
  let here ← self.read
  self.modify ({ · with started := true, root := none })
  match here.root with
  | none => pure ()
  | some root =>
      let opened ← match ← nesting.branch root with
        | some b => pure b
        | none => nesting.single root
      self.modify fun f => { f with stack := opened :: f.stack }

/-- Close the deepest branch that is open now.  None is, if asking the branch whether it has
more has used up the whole flattening. -/
def close (self : Field σ (Flatten ι α)) : Act σ Unit := do
  match (← self.read).stack with
  | [] => Act.fail (.refused .index)
  | _ :: below => self.modify ({ · with stack := below })

/-- The next leaf, after at most `fuel` steps over values and exhausted branches. -/
def search (self : Field σ (Flatten ι α)) (nesting : Nesting σ ι α) : Nat → Act σ (Option α)
  | 0 => Act.unfinished
  | fuel + 1 => do
      match (← self.read).stack with
      | [] => return none
      | top :: _ =>
          if ← (nesting.elements top).hasNext then
            let x ← nesting.classify (← (nesting.elements top).next)
            match ← nesting.branch x with
            | some b => do
                self.modify fun f => { f with stack := b :: f.stack }
                search self nesting fuel
            | none => return some x
          -- A branch goes only once it says itself that it has no more.
          else do
            close self
            search self nesting fuel

/-- The next leaf, opening the root first if need be. -/
def find (fuel : Nat) (self : Field σ (Flatten ι α)) (nesting : Nesting σ ι α) :
    Act σ (Option α) := do
  if !(← self.read).started then start self nesting
  search self nesting fuel

/-- Whether there is a further leaf; it is held ahead. -/
def hasNext (fuel : Nat) (self : Field σ (Flatten ι α)) (nesting : Nesting σ ι α) :
    Act σ Bool := do
  if (← self.read).ahead.isSome then return true
  match ← find fuel self nesting with
  | some x => do
      self.modify ({ · with ahead := some x })
      return true
  | none => return false

/-- Hand out the next leaf. -/
def next (fuel : Nat) (self : Field σ (Flatten ι α)) (nesting : Nesting σ ι α) : Act σ α := do
  match (← self.read).ahead with
  | some x => do
      self.modify ({ · with ahead := none })
      return x
  | none =>
      match ← find fuel self nesting with
      | some x => do
          self.modify ({ · with ahead := none })
          return x
      | none => Act.fail .ended

/-- The leaves as a source; a leaf cannot be removed. -/
def forward (owner : String) (fuel : Nat) (self : Field σ (Flatten ι α))
    (nesting : Nesting σ ι α) : Forward σ α where
  hasNext := hasNext fuel self nesting
  next := next fuel self nesting
  remove := Act.fail (.unsupported owner .remove)

end Flatten

end Cursors
