/-
  Cursors.Proofs.Gesture
  ──────────────────────
  **ALL THAT CAN BE ASKED OF A CURSOR.**

  Besides moves, questions and edits, a cursor tells its index and can be
  sent back to the front.  `Zipper.respond` says in one place what each of
  these calls answers and where it leads; a cursor in a list responds as its
  zipper does (`Bench.ask_respond`).
-/
import Cursors.Proofs.Bench

namespace Cursors

variable {σ α ρ : Type}

/-! ## §1. Gestures. -/

/-- A call of a two-way source that can be sent back to the front. -/
inductive Gesture (α : Type) where
  | call (c : Call α)
  | nextIndex
  | previousIndex
  | reset
  deriving Repr, DecidableEq

/-- What a gesture is answered by. -/
inductive Reply (α : Type) where
  | answer (a : Answer α)
  | index (n : Int)
  deriving Repr, DecidableEq

namespace Gesture

/-- Make a gesture. -/
def ask (source : TwoWay σ α) (reset : Act σ Unit) : Gesture α → Act σ (Reply α)
  | .call c => do return .answer (← c.ask source)
  | .nextIndex => do return .index (← source.nextIndex)
  | .previousIndex => do return .index (← source.previousIndex)
  | .reset => do
      reset
      return .answer .done

/-- The edit that a gesture is, if it is one. -/
def edit? : Gesture α → Option Edit
  | .call .remove => some .remove
  | .call (.set _) => some .set
  | .call (.add _) => some .add
  | _ => none

section

variable {source : TwoWay σ α} {reset : Act σ Unit} {s s' : σ}

theorem ask_call_of {c : Call α} {r : Except Failure (Answer α)} (h : c.ask source s = .of r s') :
    (call c).ask source reset s = .of (r.map .answer) s' :=
  Act.map_of Reply.answer h

theorem ask_nextIndex_of {n : Int} (h : source.nextIndex s = .value n s') :
    nextIndex.ask source reset s = .value (.index n) s' :=
  Act.map_of (r := .ok n) Reply.index h

theorem ask_previousIndex_of {n : Int} (h : source.previousIndex s = .value n s') :
    previousIndex.ask source reset s = .value (.index n) s' :=
  Act.map_of (r := .ok n) Reply.index h

theorem ask_reset_of (h : reset s = .value () s') :
    Gesture.reset.ask source reset s = .value (.answer .done) s' :=
  Act.map_of (r := .ok ()) (fun _ => Reply.answer .done) h

end

end Gesture

/-! ## §2. The response of a zipper. -/

namespace Zipper

/-- The zipper before the first element of the same list. -/
def rewound (z : Zipper α) : Zipper α := ⟨[], z.items, none⟩

/-- Cross the nearest element in a direction. -/
def move (z : Zipper α) (d : Direction) : Except Failure (Reply α) × Zipper α :=
  match z.toward d with
  | [] => (.error .ended, z)
  | x :: _ => (.ok (.answer (.element x)), z.cross d 1)

/-- Edit the element crossed last, if it can be edited. -/
def change (z : Zipper α) (edit : Edit) (edited : Zipper α) :
    Except Failure (Reply α) × Zipper α :=
  match z.touched with
  | none => (.error (.notMoved edit true), z)
  | some _ => (.ok (.answer .done), edited)

/-- What a gesture answers, and where it leads. -/
def respond (z : Zipper α) : Gesture α → Except Failure (Reply α) × Zipper α
  | .call .next => z.move .forward
  | .call .previous => z.move .backward
  | .call .hasNext => (.ok (.answer (.truth (!z.front.isEmpty))), z)
  | .call .hasPrevious => (.ok (.answer (.truth (!z.back.isEmpty))), z)
  | .call (.add x) => (.ok (.answer .done), z.inserted x)
  | .call (.set x) => z.change .set (z.replaced x)
  | .call .remove => z.change .remove z.removed
  | .nextIndex => (.ok (.index z.back.length), z)
  | .previousIndex => (.ok (.index (z.back.length - 1)), z)
  | .reset => (.ok (.answer .done), z.rewound)

theorem respond_next (z : Zipper α) : z.respond (.call .next) = z.move .forward := rfl

theorem respond_previous (z : Zipper α) : z.respond (.call .previous) = z.move .backward := rfl

theorem respond_set (z : Zipper α) (x : α) :
    z.respond (.call (.set x)) = z.change .set (z.replaced x) := rfl

theorem respond_remove (z : Zipper α) :
    z.respond (.call .remove) = z.change .remove z.removed := rfl

theorem move_of_toward_nil {z : Zipper α} {d : Direction} (h : z.toward d = []) :
    z.move d = (.error .ended, z) := by
  simp only [move, h]

theorem move_of_toward_cons {z : Zipper α} {d : Direction} {x : α} {xs : List α}
    (h : z.toward d = x :: xs) : z.move d = (.ok (.answer (.element x)), z.cross d 1) := by
  simp only [move, h]

theorem change_of_untouched {z : Zipper α} (h : z.touched = none) (edit : Edit)
    (edited : Zipper α) : z.change edit edited = (.error (.notMoved edit true), z) := by
  simp only [change, h]

theorem change_of_touched {z : Zipper α} {i : Nat} (h : z.touched = some i) (edit : Edit)
    (edited : Zipper α) : z.change edit edited = (.ok (.answer .done), edited) := by
  simp only [change, h]

/-- A gesture adds at most one element. -/
theorem length_respond_le (z : Zipper α) (g : Gesture α) :
    (z.respond g).2.items.length ≤ z.items.length + 1 := by
  have hmove : ∀ d, (z.move d).2.items.length ≤ z.items.length + 1 := by
    intro d
    unfold move
    split
    · exact Nat.le_succ _
    · show (z.cross d 1).items.length ≤ _
      rw [z.items_cross]
      exact Nat.le_succ _
  have hchange : ∀ edit (edited : Zipper α), edited.items.length ≤ z.items.length →
      (z.change edit edited).2.items.length ≤ z.items.length + 1 := by
    intro edit edited hle
    unfold change
    split
    · exact Nat.le_succ _
    · exact Nat.le_succ_of_le hle
  match g with
  | .call .next => exact hmove .forward
  | .call .previous => exact hmove .backward
  | .call .hasNext | .call .hasPrevious | .nextIndex | .previousIndex | .reset =>
      exact Nat.le_succ _
  | .call (.add x) => exact Nat.le_of_eq (z.length_inserted x)
  | .call (.set x) => exact hchange .set _ (Nat.le_of_eq (z.length_replaced x))
  | .call .remove => exact hchange .remove _ z.length_removed_le

/-- An index told is a number of elements behind the gap, or one less. -/
theorem index_of_respond {z : Zipper α} {g : Gesture α} {k : Int}
    (h : (z.respond g).1 = .ok (.index k)) : -1 ≤ k ∧ k ≤ z.back.length := by
  have hmove : ∀ d, (z.move d).1 ≠ .ok (.index k) := by
    intro d
    unfold move
    split <;> exact nofun
  have hchange : ∀ edit edited, (z.change edit edited).1 ≠ .ok (.index k) := by
    intro edit edited
    unfold change
    split <;> exact nofun
  match g with
  | .nextIndex =>
      obtain rfl : (z.back.length : Int) = k := Reply.index.inj (Except.ok.inj h)
      omega
  | .previousIndex =>
      obtain rfl : (z.back.length : Int) - 1 = k := Reply.index.inj (Except.ok.inj h)
      omega
  | .call .next => exact absurd h (hmove .forward)
  | .call .previous => exact absurd h (hmove .backward)
  | .call (.set x) => exact absurd h (hchange .set _)
  | .call .remove => exact absurd h (hchange .remove _)

end Zipper

/-! ## §3. The response of a cursor. -/

namespace Bench

/-- Send the cursor back to the front. -/
def rewind : Act (Bench α ρ) Unit := Cursor.reset here

variable {b : Bench α ρ} {bound : Nat} {z : Zipper α}

theorem step_apply (h : b.Shows bound z) (d : Direction) :
    ∃ b', (Gesture.call (.step d)).ask source rewind b = .of (z.move d).1 b'
      ∧ b'.Shows bound (z.move d).2 ∧ b'.top = b.top := by
  match hd : z.toward d with
  | [] =>
      rw [Zipper.move_of_toward_nil hd]
      have hstep : source.step d b = .of (.error .ended) b :=
        Cursor.step_of_toward_nil h.list_get h.here_get hd
      exact ⟨b, Gesture.ask_call_of (Call.ask_step_of hstep), h, rfl⟩
  | x :: xs =>
      rw [Zipper.move_of_toward_cons hd]
      obtain ⟨b', hstep, h', htop⟩ := step_of_toward_cons h hd
      have hof : source.step d b = .of (.ok x) b' := hstep
      exact ⟨b', Gesture.ask_call_of (Call.ask_step_of hof), h', htop⟩

theorem shows_rewound (h : b.Shows bound z) :
    Shows { b with cursor := {} } bound z.rewound where
  items_eq := h.items_eq
  spans := ⟨h.spans.length_le, Place.standsAt_plain (Nat.zero_le bound), .none⟩

/-- A cursor in a list responds as its zipper does. -/
theorem ask_respond (h : b.Shows bound z) (hroom : z.items.length < bound) (g : Gesture α) :
    ∃ b', g.ask source rewind b = .of (z.respond g).1 b' ∧ b'.Shows bound (z.respond g).2
      ∧ b'.top = b.top := by
  match g with
  | .call .next => exact step_apply h .forward
  | .call .previous => exact step_apply h .backward
  | .call .hasNext =>
      have hask : source.hasMore .forward b = .of (.ok (!z.front.isEmpty)) b :=
        hasMore_apply h .forward
      exact ⟨b, Gesture.ask_call_of (Call.ask_hasMore_of hask), h, rfl⟩
  | .call .hasPrevious =>
      have hask : source.hasMore .backward b = .of (.ok (!z.back.isEmpty)) b :=
        hasMore_apply h .backward
      exact ⟨b, Gesture.ask_call_of (Call.ask_hasMore_of hask), h, rfl⟩
  | .call (.add x) =>
      obtain ⟨b', hadd, h', htop⟩ := add_apply h hroom x
      have hof : source.add x b = .of (.ok ()) b' := hadd
      exact ⟨b', Gesture.ask_call_of (Call.ask_add_of hof), h', htop⟩
  | .call (.set x) =>
      match hi : z.touched with
      | none =>
          have hof : source.set x b = .of (.error (.notMoved .set true)) b :=
            set_of_untouched h hi x
          rw [Zipper.respond, Zipper.change_of_untouched hi]
          exact ⟨b, Gesture.ask_call_of (Call.ask_set_of hof), h, rfl⟩
      | some i =>
          obtain ⟨b', hset, h', htop⟩ := set_of_touched h hi x
          have hof : source.set x b = .of (.ok ()) b' := hset
          rw [Zipper.respond, Zipper.change_of_touched hi]
          exact ⟨b', Gesture.ask_call_of (Call.ask_set_of hof), h', htop⟩
  | .call .remove =>
      match hi : z.touched with
      | none =>
          have hof : source.remove b = .of (.error (.notMoved .remove true)) b :=
            remove_of_untouched h hi
          rw [Zipper.respond, Zipper.change_of_untouched hi]
          exact ⟨b, Gesture.ask_call_of (Call.ask_remove_of hof), h, rfl⟩
      | some i =>
          obtain ⟨b', hremove, h', htop⟩ := remove_of_touched h hi
          have hof : source.remove b = .of (.ok ()) b' := hremove
          rw [Zipper.respond, Zipper.change_of_touched hi]
          exact ⟨b', Gesture.ask_call_of (Call.ask_remove_of hof), h', htop⟩
  | .nextIndex =>
      have hindex : source.nextIndex b = .value (z.back.length : Int) b := by
        show Outcome.value b.cursor.position.toInt b = _
        rw [h.spans.position.toInt_eq]
      exact ⟨b, Gesture.ask_nextIndex_of hindex, h, rfl⟩
  | .previousIndex =>
      have hindex : source.previousIndex b = .value ((z.back.length : Int) - 1) b := by
        show Outcome.value (b.cursor.position.toInt - 1) b = _
        rw [h.spans.position.toInt_eq]
      exact ⟨b, Gesture.ask_previousIndex_of hindex, h, rfl⟩
  | .reset =>
      have hreset : rewind b = .value () { b with cursor := {} } := rfl
      exact ⟨_, Gesture.ask_reset_of hreset, shows_rewound h, rfl⟩

/-- A gesture that fails leaves list and cursor as they were. -/
theorem ask_of_error (h : b.Shows bound z) {g : Gesture α} {e : Failure}
    (he : (z.respond g).1 = .error e) : g.ask source rewind b = .of (.error e) b := by
  have hstep : ∀ d, (z.move d).1 = .error e →
      (Gesture.call (.step d)).ask source rewind b = .of (.error e) b := by
    intro d hd
    match htoward : z.toward d with
    | [] =>
        rw [Zipper.move_of_toward_nil htoward] at hd
        have hof : source.step d b = .of (.error .ended) b :=
          Cursor.step_of_toward_nil h.list_get h.here_get htoward
        rw [← hd]
        exact Gesture.ask_call_of (Call.ask_step_of hof)
    | x :: xs =>
        rw [Zipper.move_of_toward_cons htoward] at hd
        exact nomatch hd
  match g, htouched : z.touched with
  | .call .next, _ => exact hstep .forward he
  | .call .previous, _ => exact hstep .backward he
  | .call (.set x), none =>
      have hof : source.set x b = .of (.error (.notMoved .set true)) b :=
        set_of_untouched h htouched x
      rw [Zipper.respond, Zipper.change_of_untouched htouched] at he
      rw [← he]
      exact Gesture.ask_call_of (Call.ask_set_of hof)
  | .call .remove, none =>
      have hof : source.remove b = .of (.error (.notMoved .remove true)) b :=
        remove_of_untouched h htouched
      rw [Zipper.respond, Zipper.change_of_untouched htouched] at he
      rw [← he]
      exact Gesture.ask_call_of (Call.ask_remove_of hof)
  | .call (.set x), some i | .call .remove, some i =>
      rw [Zipper.respond, Zipper.change_of_touched htouched] at he
      exact nomatch he
  | .call .hasNext, _ | .call .hasPrevious, _ | .call (.add _), _ | .nextIndex, _
  | .previousIndex, _ | .reset, _ => exact nomatch he

end Bench

end Cursors
