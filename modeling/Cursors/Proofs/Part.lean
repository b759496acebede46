/-
  Cursors.Proofs.Part
  ───────────────────
  **LAWFUL PARTS OF A STATE.**

  A part of a state is lawful if what is written into it is read back, what
  was read changes nothing when it is written back, and the second of two
  writings hides the first.

  An iterator and the list that it goes over are two such parts, of which
  neither shows in the other (`Field.Beside`).  At a plain position within
  its length, the list is read, set and edited as expected.
-/
import Cursors.Proofs.Cursor

namespace Cursors

variable {σ τ υ α : Type}

/-! ## §1. Laws. -/

namespace Field

/-- What is written is read back, and of what was there before nothing is kept. -/
structure Lawful (part : Field σ τ) : Prop where
  get_set : ∀ t s, part.get (part.set t s) = t
  set_get : ∀ s, part.set (part.get s) s = s
  set_set : ∀ t u s, part.set t (part.set u s) = part.set t s

theorem lawful_left : (left : Field (σ × τ) σ).Lawful :=
  ⟨fun _ _ => rfl, fun _ => rfl, fun _ _ _ => rfl⟩

theorem lawful_right : (right : Field (σ × τ) τ).Lawful :=
  ⟨fun _ _ => rfl, fun _ => rfl, fun _ _ _ => rfl⟩

/-- Two lawful parts of which neither shows in the other. -/
structure Beside (part : Field σ τ) (other : Field σ υ) : Prop where
  lawful : part.Lawful
  lawful_other : other.Lawful
  apart : part.Apart other

theorem right_beside_left : (right : Field (σ × τ) τ).Beside left :=
  ⟨lawful_right, lawful_left, ⟨fun _ _ => rfl, fun _ _ => rfl⟩⟩

end Field

/-! ## §2. Plain positions in a list. -/

namespace Sequence

variable {list : Field σ (List α)} {s : σ} {i : Nat}

theorem length_apply : (ofList list).length s = .value (list.get s).length s := rfl

theorem get_plain {x : α} (hx : (list.get s)[i]? = some x) :
    (ofList list).get (.plain i) s = .value x s :=
  Cursor.get_ofList_apply (Place.standsAt_plain (Nat.le_refl i)) hx

theorem index?_plain (hi : i < (list.get s).length) :
    Place.index? (list.get s).length (Place.plain i).toInt = some i := by
  rw [Place.toInt_plain, Place.index?_natCast, if_pos hi]

theorem set_plain (hi : i < (list.get s).length) (x : α) :
    (ofList list).set (.plain i) x s = .value () (list.set ((list.get s).set i x) s) := by
  simp only [ofList, Act.bind_apply, Field.read_apply, index?_plain hi, Field.modify_apply]

theorem delete_plain (hi : i < (list.get s).length) :
    (ofList list).delete (.plain i) s = .value () (list.set ((list.get s).eraseIdx i) s) := by
  simp only [ofList, Act.bind_apply, Field.read_apply, index?_plain hi, Field.modify_apply]

theorem insert_plain (hi : i ≤ (list.get s).length) (x : α) :
    (ofList list).insert (.plain i) x s
      = .value () (list.set ((list.get s).take i ++ x :: (list.get s).drop i) s) := by
  have hpoint : Place.insertionPoint (list.get s).length (Place.plain i).toInt = i := by
    rw [Place.toInt_plain, Place.insertionPoint, if_neg (by omega), Int.toNat_natCast]
    omega
  simp only [ofList, Field.modify_apply, hpoint]

end Sequence

end Cursors
