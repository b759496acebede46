/-
  Cursors.Workspace.Table
  ───────────────────────
  **DICTIONARIES.**

  A dictionary keeps its entries in order of insertion.  Removing one leaves
  a hole, so that a walk under way keeps its place; the holes go when the
  dictionary is laid out anew, which it is when it runs out of room, and
  when a key other than a text comes to texts alone.  The view of a
  dictionary is the list of its entries.
-/
import Cursors.Workspace.Value

namespace Cursors.Workspace

/-- A dictionary: the entries with the holes between them, the width of the layout, and whether
it was laid out for texts alone. -/
structure Table where
  slots : List (Option (Value × Value)) := []
  width : Nat := 0
  texts : Bool := true
  deriving Repr, DecidableEq

namespace Table

/-! ## §1. The view. -/

/-- The entries, in order. -/
def entries (t : Table) : List (Value × Value) := t.slots.filterMap id

/-- The number of entries. -/
def size (t : Table) : Nat := t.entries.length

/-- The value under the key that `same` accepts. -/
def find? (t : Table) (same : Value → Bool) : Option Value :=
  t.entries.findSome? fun (k, x) => if same k then some x else none

/-- The first entry from a slot on, with the slot after it. -/
def entryFrom (t : Table) (slot : Nat) : Option ((Value × Value) × Nat) :=
  match (t.slots.drop slot).findIdx? Option.isSome with
  | none => none
  | some k => ((t.slots[slot + k]?).join).map fun e => (e, slot + k + 1)

/-! ## §2. Layout. -/

/-- The width for about `n` entries: the least power of two that is not below `n`, where an `n`
without an eight among its powers of two has eight added first. -/
def widthFor (n : Nat) : Nat := Number.twoTo (Nat.log2 ((n ||| 8) - 1) + 1)

/-- Six entries get room for more than eight, and thirty-two for more than thirty-two. -/
example : [0, 3, 6, 8, 9, 15, 16, 24, 25, 32].map widthFor
    = [8, 16, 16, 8, 16, 16, 32, 32, 32, 64] := by decide

/-- The number of entries that fit a layout of some width: two thirds of it. -/
def usable (width : Nat) : Nat := 2 * width / 3

/-- Entries laid out without holes in some width. -/
def layOut (entries : List (Value × Value)) (width : Nat) (texts : Bool) : Table where
  slots := entries.map some
  width := width
  texts := texts

/-- Whether a further entry fits; holes take room as well. -/
def hasRoom (t : Table) : Bool := t.slots.length < usable t.width

/-- The dictionary laid out anew, with room to grow to three times its size. -/
def renew (t : Table) (texts : Bool) : Table := layOut t.entries (widthFor (3 * t.size)) texts

/-! ## §3. Changes. -/

/-- Whether a value is a text. -/
def isText : Value → Bool
  | .text _ => true
  | _ => false

/-- The dictionary made ready for a key of this kind, whether the key is there or not. -/
def prepare (t : Table) (key : Value) : Table :=
  if t.slots.isEmpty then { t with texts := isText key }
  else if t.texts && !isText key then t.renew false
  else t

/-- A new entry at the end. -/
def append (t : Table) (key x : Value) : Table :=
  let t := if t.hasRoom then t else t.renew t.texts
  { t with slots := t.slots ++ [some (key, x)] }

/-- Put a value under a key: in the place of the value that is there, else at the end. -/
def insert (t : Table) (same : Value → Bool) (key x : Value) : Table :=
  let t := t.prepare key
  if (t.find? same).isSome then
    { t with slots := t.slots.map fun e => e.map fun (k, y) => (k, if same k then x else y) }
  else t.append key x

/-- Remove the entry under the key that `same` accepts. -/
def erase (t : Table) (same : Value → Bool) : Table :=
  { t with slots := t.slots.map fun e => e.filter fun (k, _) => !same k }

/-- A copy.  A dictionary without holes that fills its layout well is copied as it is laid out;
of others the entries are put in one after the other. -/
def copy (t : Table) : Table :=
  if t.size = t.slots.length && (t.width = 8 || usable (t.width / 2) < t.size) then t
  else layOut t.entries (widthFor ((3 * t.size + 1) / 2)) t.texts

/-! ## §4. Laws of the view. -/

@[simp] theorem entries_layOut (es : List (Value × Value)) (width : Nat) (texts : Bool) :
    (layOut es width texts).entries = es := by
  simp [layOut, entries, List.filterMap_map]

@[simp] theorem entries_renew (t : Table) (texts : Bool) : (t.renew texts).entries = t.entries := by
  simp [renew]

@[simp] theorem entries_prepare (t : Table) (key : Value) :
    (t.prepare key).entries = t.entries := by
  unfold prepare
  split
  · rfl
  · split <;> simp

/-- A new entry comes last. -/
@[simp] theorem entries_append (t : Table) (key x : Value) :
    (t.append key x).entries = t.entries ++ [(key, x)] := by
  have h (u : Table) : ({ u with slots := u.slots ++ [some (key, x)] } : Table).entries
      = u.entries ++ [(key, x)] := by simp [entries]
  unfold append
  split
  · rw [h]
  · rw [h, entries_renew]

/-- What is removed leaves the others in order. -/
theorem entries_erase (t : Table) (same : Value → Bool) :
    (t.erase same).entries = t.entries.filter fun e => !same e.1 := by
  show List.filterMap id (t.slots.map (Option.filter fun e => !same e.1))
    = (List.filterMap id t.slots).filter fun e => !same e.1
  induction t.slots with
  | nil => rfl
  | cons e rest ih =>
      cases e with
      | none => exact ih
      | some e =>
          show List.filterMap id
              (Option.filter (fun e => !same e.1) (some e) :: rest.map (Option.filter _))
            = List.filter _ (e :: List.filterMap id rest)
          cases h : same e.1
          · have hf : Option.filter (fun e => !same e.1) (some e) = some e := by
              simp [Option.filter, h]
            rw [hf, List.filter_cons_of_pos (by simp [h]), ← ih]
            rfl
          · have hf : Option.filter (fun e => !same e.1) (some e) = none := by
              simp [Option.filter, h]
            rw [hf, List.filter_cons_of_neg (by simp [h]), ← ih]
            rfl

end Table

end Cursors.Workspace
