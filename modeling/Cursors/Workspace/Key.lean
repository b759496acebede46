/-
  Cursors.Workspace.Key
  ─────────────────────
  **KEYS.**

  What can be a member of a set or a key of a dictionary, and when two of
  these are the same: numbers of all kinds by their exact magnitude, texts,
  bytes and rows by their content, everything else by identity.  A number
  that is not one is the same only as itself.

  Containers can hold themselves, so the comparison carries the number of
  levels that may still be entered.
-/
import Cursors.Workspace.Store

namespace Cursors.Workspace

/-! ## §1. Ranges. -/

/-- The number of elements of a range. -/
def rangeLength (start stop step : Int) : Nat :=
  if step > 0 then ((stop - start + step - 1).fdiv step).toNat
  else if step < 0 then ((start - stop - step - 1).fdiv (-step)).toNat
  else 0

/-- Whether two ranges hold the same elements. -/
def sameRange (a b c a' b' c' : Int) : Bool :=
  let n := rangeLength a b c
  n = rangeLength a' b' c' && (n = 0 || (a = a' && (n = 1 || c = c')))

/-! ## §2. Sameness. -/

/-- Whether two lists are the same under a relation on elements. -/
def sameLists (same : Value → Value → Bool) : List Value → List Value → Bool
  | [], [] => true
  | x :: xs, y :: ys => same x y && sameLists same xs ys
  | _, _ => false

/-- Whether two values are the same key, entering at most the given number of levels. -/
def Store.sameWithin (s : Store) : Nat → Value → Value → Bool
  | 0, a, b => a == b
  | levels + 1, a, b =>
      a == b ||
        match a.plain?, b.plain? with
        | some p, some q => p.magnitude.compare q.magnitude == some .eq
        | _, _ =>
            match s.cell? a, s.cell? b with
            | some (.tuple xs), some (.tuple ys) => sameLists (s.sameWithin levels) xs ys
            | some (.set _ t), some (.set _ u) =>
                t.size == u.size && t.members.all fun x => u.members.any (s.sameWithin levels x)
            | some (.bytes _ xs), some (.bytes _ ys) => xs == ys
            | some (.range a b c), some (.range a' b' c') => sameRange a b c a' b' c'
            | _, _ => false

/-- The number of levels that comparisons of keys enter. -/
def Store.levels (s : Store) : Nat := s.cells.size + 1

/-- Whether two values are the same key. -/
def Store.same (s : Store) (a b : Value) : Bool := s.sameWithin s.levels a b

/-! ## §3. What can be a key. -/

/-- Whether a value can be a key, entering at most the given number of levels. -/
def Store.isKeyWithin (s : Store) : Nat → Value → Bool
  | 0, _ => false
  | levels + 1, v =>
      match s.cell? v with
      | some (.list _) | some (.deque ..) | some (.set false _) | some (.dict _)
      | some (.bytes .changeable _) | some (.packed ..) | some (.grid ..) => false
      -- Maps are equal by their entries, which can change.
      | some (.custom record _) => !record.spec.mapping
      | some (.tuple items) => items.all (s.isKeyWithin levels)
      | _ => true

/-- Fail unless a value can be a key. -/
def needKey (v : Value) : Act Store Unit := do
  if ← Act.reading fun s => s.isKeyWithin s.levels v then pure ()
  else Act.fail (.refused .type)

end Cursors.Workspace
