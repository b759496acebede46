/-
  Cursors.Workspace.Residue
  ─────────────────────────
  **RESIDUES.**

  The number by which a value finds its slot in a set.  Values that are the
  same have one residue: that of a number is its magnitude modulo a prime,
  that of a row is mixed from those of its elements in order, that of a
  frozen set from those of its members in any order.  All arithmetic is
  that of words of sixty-four bits.

  Texts, missing values and objects known by identity alone are not met in
  an order that can be relied on; any fixed number serves for them.
-/
import Cursors.Workspace.Key

namespace Cursors.Workspace

/-! ## §1. Numbers. -/

/-- The prime below which the residues of numbers lie, apart from their sign: `2 ^ 61 - 1`. -/
def residuePrime : Nat := Number.twoTo 61 - 1

/-- A residue with a sign, as a word of sixty-four bits.  Minus one is not used. -/
def signedResidue (negative : Bool) (residue : Nat) : Nat :=
  if !negative || residue = 0 then residue
  else Number.twoTo 64 - (if residue = 1 then 2 else residue)

/-- The residue of a plain number, by its magnitude alone; what is not a number has none. -/
def Plain.residue? (p : Plain) : Option Nat :=
  match p.magnitude with
  | .nan => none
  | .infinite negative => some (signedResidue negative 314159)
  | .exact n exponent =>
      -- The powers of two repeat after sixty-one.
      let shift := (exponent % 61).toNat
      some (signedResidue (n < 0) (n.natAbs * Number.twoTo shift % residuePrime))

/-! ## §2. Mixing. -/

/-- The residue of a row of residues; their order counts. -/
def rowResidue (parts : List UInt64) : UInt64 :=
  let start : UInt64 := 2870177450012600261
  let mixed := parts.foldl (fun (sum part : UInt64) =>
    let sum := sum + part * 14029467366897019727
    ((sum <<< 31) ||| (sum >>> 33)) * 11400714785074694791) start
  let mixed := mixed + (UInt64.ofNat parts.length ^^^ (start ^^^ 3527539))
  if mixed + 1 = 0 then 1546275796 else mixed

/-- A residue with its bits spread. -/
def spreadBits (residue : UInt64) : UInt64 :=
  ((residue ^^^ (89869747 : UInt64)) ^^^ (residue <<< 16)) * 3644798167

/-- The residue of a group of residues; their order does not count. -/
def groupResidue (parts : List UInt64) : UInt64 :=
  let mixed := parts.foldl (fun sum part => sum ^^^ spreadBits part) 0
  let mixed := mixed ^^^ (UInt64.ofNat (parts.length + 1) * 1927868237)
  let mixed := mixed ^^^ (mixed >>> 11) ^^^ (mixed >>> 25)
  let mixed := mixed * 69069 + 907133923
  if mixed + 1 = 0 then 590923713 else mixed

/-- The residue of some codes. -/
def codesResidue (codes : List Nat) : Nat :=
  codes.foldl (fun sum code => (sum * 256 + code) % residuePrime) 0

/-! ## §3. Values. -/

/-- The residue of a value, entering at most the given number of levels. -/
def Store.residueWithin (s : Store) : Nat → Value → Nat
  | 0, _ => 0
  | levels + 1, v =>
      let part (x : Value) : UInt64 := UInt64.ofNat (s.residueWithin levels x)
      match v, v.plain?.bind Plain.residue? with
      | _, some residue => residue
      | .text t, _ => codesResidue (t.toList.map Char.toNat)
      | .float _ mark, _ | .scalar _ _ mark, _ => mark
      | .object id, _ =>
          match s.cells[id]? with
          | some (.tuple items) => (rowResidue (items.map part)).toNat
          | some (.set _ t) => (groupResidue (t.members.map part)).toNat
          | some (.bytes _ data) => codesResidue (data.map UInt8.toNat)
          | some (.range a b c) =>
              -- Ranges with the same elements look the same.
              let row : List Value := match rangeLength a b c with
                | 0 => [.int 0, .null, .null]
                | 1 => [.int 1, .int a, .null]
                | n => [.int n, .int a, .int c]
              (rowResidue (row.map part)).toNat
          | _ => id
      | _, _ => 0

/-- The residue of a value. -/
def Store.residue (s : Store) (v : Value) : Nat := s.residueWithin s.levels v

/-- A set with a further member, unless one that is the same is there. -/
def Store.withMember (s : Store) (t : Scatter) (x : Value) : Scatter :=
  if t.members.any (s.same x) then t else t.insert (s.residue x) x

end Cursors.Workspace
