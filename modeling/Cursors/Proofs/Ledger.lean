/-
  Cursors.Proofs.Ledger
  ─────────────────────
  **WHICH ELEMENT AN EDIT IS MEANT FOR.**

  A removal or a replacement is meant for the element returned last.  The
  cursor below edits the element that *it* crossed last.  The ledger is
  kept beside a run and never consulted by it:

      returned   the index of the element returned last, since the start
                 and since the last successful removal or insertion
      strayed    the cursor has crossed another element since, in a call
                 that came to no match

  An edit is faithful if it falls on `returned`.  `Trusted` says that an
  edit, unless it is refused anyway, is faithful exactly if the cursor has
  not strayed.
-/
import Cursors.Proofs.Bench

namespace Cursors

variable {α ρ γ : Type}

/-! ## §1. The ledger. -/

/-- The index of the element that a cursor crossed last, if it can be edited. -/
def Cursor.touched (c : Cursor) : Option Nat := c.last.map (·.toInt.toNat)

/-- What is remembered of the element returned last. -/
structure Ledger where
  returned : Option Nat := none
  strayed : Bool := false
  deriving Repr, DecidableEq

namespace Ledger

/-- A call came to no match; the cursor may have moved on the way. -/
def skip (l : Ledger) (before after : Bench α ρ) : Ledger :=
  if before.cursor.position.toInt = after.cursor.position.toInt then l
  else { l with strayed := after.cursor.touched != l.returned }

/-- An element was put into the list at the gap, and nothing can be edited any more. -/
def shift (l : Ledger) (before : Bench α ρ) : Ledger where
  returned := l.returned.map fun (i : Nat) =>
    if (i : Int) < before.cursor.position.toInt then i else i + 1

/-- The ledger after a call. -/
def record (l : Ledger) (call : Call α) (r : Except Failure (Answer α))
    (before after : Bench α ρ) : Ledger :=
  match call, r with
  | .set _, _ => l
  | .remove, .ok _ | .add _, .ok _ => {}
  | .remove, .error _ => l
  -- The predicate failed on the new element, which is in the list all the same.
  | .add _, .error _ => if before.items.length = after.items.length then l else l.shift before
  | _, .ok (.element _) => { returned := after.cursor.touched }
  | _, .ok (.truth true) => l
  | _, _ => l.skip before after

end Ledger

/-! ## §2. Edits. -/

/-- What an edit makes of the list at an index. -/
def Call.change : Call α → Option (List α → Nat → List α)
  | .remove => some List.eraseIdx
  | .set x => some fun xs i => xs.set i x
  | _ => none

/-- An edit that succeeds changes the element returned last; one that fails is refused and
changes nothing. -/
def Faithful (l : Ledger) (change : List α → Nat → List α) (before : Bench α ρ)
    (r : Except Failure (Answer α)) (after : Bench α ρ) : Prop :=
  match r with
  | .ok _ => ∃ i, l.returned = some i ∧ before.cursor.touched = some i
      ∧ after.items = change before.items i
  | .error e => e.kind = "IllegalStateError" ∧ after.items = before.items

/-- An edit that is not refused is faithful exactly if the cursor has not strayed. -/
structure Trusted (refused : Prop) (l : Ledger) (change : List α → Nat → List α)
    (before : Bench α ρ) (r : Except Failure (Answer α)) (after : Bench α ρ) : Prop where
  faithful : refused ∨ l.strayed = false → Faithful l change before r after
  astray : ¬ refused → l.strayed = true → r = .ok .done
    ∧ ∃ i, before.cursor.touched = some i ∧ l.returned ≠ some i
      ∧ after.items = change before.items i

/-- Every call of a run has the property `P`, given the ledger before it. -/
def Along (ask : γ → Act (Bench α ρ) (Answer α)) (shape : γ → Call α)
    (P : Ledger → γ → Bench α ρ → Except Failure (Answer α) → Bench α ρ → Prop) :
    List γ → Ledger → Bench α ρ → Prop
  | [], _, _ => True
  | call :: calls, l, b => ∃ r b', ask call b = .of r b' ∧ P l call b r b'
      ∧ Along ask shape P calls (l.record (shape call) r b b') b'

/-- What holds of the ledger and the bench before each call gives the property of the call. -/
theorem along_of_invariant {ask : γ → Act (Bench α ρ) (Answer α)} {shape : γ → Call α}
    {P : Ledger → γ → Bench α ρ → Except Failure (Answer α) → Bench α ρ → Prop}
    (Inv : Nat → Ledger → Bench α ρ → Prop)
    (hstep : ∀ k l b call, Inv (k + 1) l b → ∃ r b', ask call b = .of r b' ∧ P l call b r b'
      ∧ Inv k (l.record (shape call) r b b') b')
    (calls : List γ) {l : Ledger} {b : Bench α ρ} (h : Inv calls.length l b) :
    Along ask shape P calls l b := by
  induction calls generalizing l b with
  | nil => trivial
  | cons call calls ih =>
      obtain ⟨r, b', hask, hP, h'⟩ := hstep _ l b call h
      exact ⟨r, b', hask, hP, ih h'⟩

theorem Call.change_hasMore (d : Direction) : (Call.hasMore d : Call α).change = none := by
  cases d <;> rfl

theorem Call.change_step (d : Direction) : (Call.step d : Call α).change = none := by
  cases d <;> rfl

/-! ## §3. The ledger and the cursor. -/

theorem Cursor.Spans.touched_eq {c : Cursor} {bound : Nat} {z : Zipper α}
    (h : c.Spans bound z) : c.touched = z.touched := by
  have hlast := h.last
  rw [Cursor.touched]
  match c.last, z.touched, hlast with
  | none, none, .none => rfl
  | some p, some i, .some hp =>
      rw [Option.map_some, hp.toInt_eq]
      rfl

/-- The ledger is right about the cursor in the gap of `z`. -/
structure Ledger.Follows (l : Ledger) (z : Zipper α) : Prop where
  steady : l.strayed = false → ∀ i, z.touched = some i → l.returned = some i
  astray : l.strayed = true → ∃ i, z.touched = some i ∧ l.returned ≠ some i

variable {l : Ledger} {z z' : Zipper α} {b b' : Bench α ρ} {bound : Nat}

theorem Ledger.follows_of_untouched (hz : z.touched = none) (hl : l.strayed = false) :
    l.Follows z where
  steady _ i hi := by rw [hz] at hi; exact absurd hi (by simp)
  astray h := by rw [hl] at h; exact absurd h (by simp)

theorem Ledger.Follows.steady_of_untouched (h : l.Follows z) (hz : z.touched = none) :
    l.strayed = false := by
  match hl : l.strayed with
  | false => rfl
  | true =>
      obtain ⟨i, hi, -⟩ := h.astray hl
      rw [hz] at hi
      exact absurd hi (by simp)

theorem Ledger.Follows.of_touched_eq (h : l.Follows z) (hz : z'.touched = z.touched) :
    l.Follows z' where
  steady hl i hi := h.steady hl i (by rw [← hz, hi])
  astray hl := by
    obtain ⟨i, hi, hne⟩ := h.astray hl
    exact ⟨i, by rw [hz, hi], hne⟩

/-- Right after an element was returned. -/
theorem Ledger.follows_of_touched {i : Nat} (hz : z.touched = some i) :
    Ledger.Follows { returned := some i } z where
  steady _ j hj := by rw [← hj, hz]
  astray h := absurd h (by simp)

/-- The ledger stays right in a call that comes to no match. -/
theorem Ledger.follows_skip (hb : b.Shows bound z) (d : Direction) {n : Nat}
    (hb' : b'.Shows bound (z.cross d n)) (hn : n ≤ (z.toward d).length)
    (hl : n = 0 → l.Follows z) : (l.skip b b').Follows (z.cross d n) := by
  have hpos := hb.spans.position.toInt_eq
  have hpos' := hb'.spans.position.toInt_eq
  -- The ledger compares positions; they differ exactly if something was crossed.
  match n with
  | 0 =>
      rw [z.cross_zero] at hpos' ⊢
      rw [skip, if_pos (by rw [hpos, hpos'])]
      exact hl rfl
  | n + 1 =>
      have hmoved : (z.cross d (n + 1)).back.length ≠ z.back.length :=
        Zipper.length_back_cross_ne (Nat.succ_pos n) hn
      obtain ⟨i, hi⟩ : ∃ i, (z.cross d (n + 1)).touched = some i :=
        Zipper.touched_cross (Nat.succ_pos n) hn
      rw [skip, if_neg (by rw [hpos, hpos']; omega), hb'.spans.touched_eq, hi]
      constructor
      · intro h j hj
        rw [hi] at hj
        rw [← hj]
        exact (bne_eq_false_iff_eq.mp h).symm
      · intro h
        exact ⟨i, hi, (bne_iff_ne.mp h).symm⟩

@[simp] theorem Ledger.returned_skip (l : Ledger) (b b' : Bench α ρ) :
    (l.skip b b').returned = l.returned := by
  unfold skip
  split <;> rfl

theorem Ledger.record_step_element (d : Direction) (x : α) :
    l.record (Call.step d) (.ok (.element x)) b b' = { returned := b'.cursor.touched } := by
  cases d <;> rfl

theorem Ledger.record_step_error (d : Direction) (e : Failure) :
    l.record (Call.step d) (.error e) b b' = l.skip b b' := by
  cases d <;> rfl

theorem Ledger.record_hasMore_true (d : Direction) :
    l.record (Call.hasMore d) (.ok (.truth true)) b b' = l := by
  cases d <;> rfl

theorem Ledger.record_hasMore_false (d : Direction) :
    l.record (Call.hasMore d) (.ok (.truth false)) b b' = l.skip b b' := by
  cases d <;> rfl

theorem Ledger.record_hasMore_error (d : Direction) (e : Failure) :
    l.record (Call.hasMore d) (.error e) b b' = l.skip b b' := by
  cases d <;> rfl

/-- An edit that fails leaves the ledger as it is. -/
theorem Ledger.record_error_of_change {call : Call α} {change : List α → Nat → List α}
    (hcall : call.change = some change) (e : Failure) : l.record call (.error e) b b' = l := by
  cases call with
  | set _ => rfl
  | remove => rfl
  | next | previous | hasNext | hasPrevious | add _ => exact absurd hcall (by simp [Call.change])

/-- An edit that is refused leaves everything as it is. -/
theorem trusted_of_refused {refused : Prop} {change : List α → Nat → List α} {e : Failure}
    (hkind : e.kind = "IllegalStateError") (hrefused : refused ∨ l.strayed = false) :
    Trusted refused l change b (.error e) b where
  faithful _ := ⟨hkind, rfl⟩
  astray h hl := by
    rcases hrefused with h' | h'
    · exact absurd h' h
    · rw [hl] at h'
      exact absurd h' (by simp)

/-- An edit that is passed on falls on the element that the cursor crossed last. -/
theorem trusted_of_touched {refused : Prop} {change : List α → Nat → List α} {i : Nat}
    (hrefused : ¬ refused) (hl : l.Follows z) (hi : z.touched = some i)
    (hb : b.cursor.touched = some i) (hitems : b'.items = change b.items i) :
    Trusted refused l change b (.ok .done) b' where
  faithful h := by
    rcases h with h | h
    · exact absurd h hrefused
    · exact ⟨i, hl.steady h i hi, hb, hitems⟩
  astray _ h := by
    obtain ⟨j, hj, hne⟩ := hl.astray h
    rw [hi] at hj
    obtain rfl : i = j := by simpa using hj
    exact ⟨rfl, i, hb, hne, hitems⟩

end Cursors
