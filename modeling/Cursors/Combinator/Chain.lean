/-
  Cursors.Combinator.Chain
  ────────────────────────
  **ONE SOURCE AFTER THE OTHER.**

  A chain goes through its members from left to right and turns to a member
  only once all before it have said that they are exhausted.  Members can be
  added until the first use.  A removal goes to the member that gave the
  last element, even if the chain has moved on since.

  The members are named by `ι`; what a name stands for is given by
  `member : ι → Forward σ α`.
-/
import Cursors.Action

namespace Cursors

/-- The state of a chain: its members, the position of the one in use, that one itself once it
was turned to, the one that gave the last element, and whether the chain was used. -/
structure Chain (ι : Type) where
  members : List ι := []
  position : Nat := 0
  current : Option ι := none
  lastUsed : Option ι := none
  locked : Bool := false
  deriving Repr, DecidableEq

namespace Chain

variable {σ α ι : Type}

/-! ## §1. Building. -/

/-- Add the members that `more` answers, unless the chain was used. -/
def extend (self : Field σ (Chain ι)) (more : Act σ (List ι)) : Act σ Unit := do
  if (← self.read).locked then Act.fail .chainInUse
  else do
    let added ← more
    self.modify fun c => { c with members := c.members ++ added }

/-! ## §2. Moves. -/

/-- Turn to the next member for as long as the present one is exhausted and not the last, at
most `steps` times. -/
def advance (self : Field σ (Chain ι)) (member : ι → Forward σ α) : Nat → Act σ Unit
  | 0 => pure ()
  | steps + 1 => do
      match (← self.read).current with
      | none => pure ()
      | some m =>
          if ← (member m).hasNext then pure ()
          else
            let here ← self.read
            match here.members[here.position + 1]? with
            -- The last member stays in use, exhausted or not.
            | none => pure ()
            | some following => do
                self.modify fun c =>
                  { c with position := c.position + 1, current := some following }
                advance self member steps

/-- Close the chain for changes and turn to the first member that is not known to be
exhausted.  `note` is told the number of members on the first use. -/
def settle (self : Field σ (Chain ι)) (member : ι → Forward σ α) (note : Nat → Act σ Unit) :
    Act σ Unit := do
  let here ← self.read
  if !here.locked then
    note here.members.length
    self.modify ({ · with locked := true })
  let here ← self.read
  match here.current, here.members with
  | none, [] => pure ()
  | none, first :: _ => do
      self.modify ({ · with current := some first })
      advance self member here.members.length
  | some _, members => advance self member members.length

/-- Whether some member has a further element. -/
def hasNext (self : Field σ (Chain ι)) (member : ι → Forward σ α) (note : Nat → Act σ Unit) :
    Act σ Bool := do
  settle self member note
  match (← self.read).current with
  | none => return false
  | some m => (member m).hasNext

/-- The next element of the chain. -/
def next (self : Field σ (Chain ι)) (member : ι → Forward σ α) (note : Nat → Act σ Unit) :
    Act σ α := do
  settle self member note
  match (← self.read).current with
  | none => Act.fail .ended
  | some m => do
      let x ← (member m).next
      self.modify fun c => { c with lastUsed := c.current }
      return x

/-! ## §3. Removal. -/

/-- Remove the element given last from its member. -/
def remove (self : Field σ (Chain ι)) (member : ι → Forward σ α) : Act σ Unit := do
  match (← self.read).lastUsed with
  | none => Act.fail (.notMoved .remove false)
  | some m => do
      (member m).remove
      self.modify ({ · with lastUsed := none })

/-- The chain as a source. -/
def forward (self : Field σ (Chain ι)) (member : ι → Forward σ α) (note : Nat → Act σ Unit) :
    Forward σ α where
  hasNext := hasNext self member note
  next := next self member note
  remove := remove self member

end Chain

end Cursors
