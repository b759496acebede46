/-
  Cursors.Proofs.ListFilter.Atomic
  ────────────────────────────────
  **WHAT AN EDIT THAT FAILS LEAVES BEHIND.**

  An edit of a two-way filter checks what it can before it changes anything,
  so that an edit that is refused leaves everything as it was.  The one
  check that comes too late is the predicate of an insertion: it is called
  when the new element is in the list already.  If it fails there
  (`Spoils`), the insertion is left half done (`Torn`):

      the element is in the list, and the cursor has moved past it
      the index and the last move are as they were before
      a removal is refused, since the cursor has forgotten what it crossed

  Main result (`failed_edits_atomic`): along every run of calls, an edit
  that fails and is not spoiled so has changed nothing at all.
-/
import Cursors.Proofs.After
import Cursors.Proofs.ListFilter.Edits
import Cursors.Proofs.ListFilter.Navigation

namespace Cursors

/-- The call is meant to change the list. -/
def Call.IsEdit {α : Type} : Call α → Prop
  | .remove | .set _ | .add _ => True
  | _ => False

namespace ListFilter

variable {α : Type}

/-! ## §1. Insertions that are left half done. -/

/-- The predicate fails on an element that is inserted. -/
def Spoils (verdict : α → Except Failure Bool) (b : Bench α (ListFilter α)) (call : Call α) :
    Prop :=
  ¬ b.top.IsHolding ∧ ∃ x e, call = .add x ∧ verdict x = .error e

/-- The element was inserted before the gap and is not accounted for. -/
structure Torn (fuel : Nat) (verdict : α → Except Failure Bool) (x : α)
    (b b' : Bench α (ListFilter α)) : Prop where
  items_eq : b'.items = b.items.take b.cursor.position.toInt.toNat
    ++ x :: b.items.drop b.cursor.position.toInt.toNat
  position_eq : b'.cursor.position.toInt = b.cursor.position.toInt + 1
  top_eq : b'.top = b.top
  refused : (onBench fuel verdict).remove b' = .failure (.notMoved .remove true) b'

/-- An edit that fails has changed nothing, unless the predicate failed on the element that was
inserted; then the insertion is left half done. -/
structure Undone (fuel : Nat) (verdict : α → Except Failure Bool) (call : Call α)
    (b : Bench α (ListFilter α)) (r : Except Failure (Answer α)) (b' : Bench α (ListFilter α)) :
    Prop where
  atomic : ∀ e, r = .error e → call.IsEdit → ¬ Spoils verdict b call → b' = b
  torn : ∀ x e, call = .add x → verdict x = .error e → ¬ b.top.IsHolding →
    r = .error e ∧ Torn fuel verdict x b b'

section

variable {verdict : α → Except Failure Bool} {bound fuel : Nat} {b b' : Bench α (ListFilter α)}
  {z : Zipper α} {call : Call α} {r : Except Failure (Answer α)}

/-! ## §2. One edit. -/

/-- A removal changes nothing or succeeds. -/
theorem remove_cases (fuel : Nat) (verdict : α → Except Failure Bool) (h : b.Shows bound z) :
    (∃ e, (onBench fuel verdict).remove b = .failure e b)
      ∨ ∃ b', (onBench fuel verdict).remove b = .value () b' := by
  by_cases hholding : b.top.IsHolding
  · exact .inl ⟨_, remove_of_holding hholding⟩
  · cases hmoved : b.top.moved with
    | none => exact .inl ⟨_, remove_of_not_moved hholding hmoved⟩
    | some d =>
        cases htouched : z.touched with
        | none => exact .inl ⟨_, remove_of_untouched hholding h htouched⟩
        | some i =>
            obtain ⟨b', hremove, -, -⟩ := remove_of_touched fuel verdict hholding hmoved h htouched
            exact .inr ⟨b', hremove⟩

theorem set_cases (fuel : Nat) (verdict : α → Except Failure Bool) (h : b.Shows bound z) (x : α) :
    (∃ e, (onBench fuel verdict).set x b = .failure e b)
      ∨ ∃ b', (onBench fuel verdict).set x b = .value () b' := by
  by_cases hholding : b.top.IsHolding
  · exact .inl ⟨_, set_of_holding hholding x⟩
  · rw [set_of_not_holding hholding]
    cases htouched : z.touched with
    | none => exact .inl ⟨_, Bench.set_of_untouched h htouched x⟩
    | some i =>
        obtain ⟨b', hset, -, -⟩ := Bench.set_of_touched h htouched x
        exact .inr ⟨b', hset⟩

/-- An insertion on whose element the predicate fails. -/
theorem torn_of_error (fuel : Nat) (h : b.Shows bound z) (hroom : z.items.length < bound)
    (hholding : ¬ b.top.IsHolding) {x : α} {e : Failure} (hx : verdict x = .error e) :
    ∃ b', (Call.add x).ask (onBench fuel verdict) b = .of (.error e) b'
      ∧ Torn fuel verdict x b b' := by
  obtain ⟨b', hask, hb', htop⟩ := ask_add_of_not_holding fuel verdict hholding h hroom x
  rw [hx] at hask
  rw [added_of_error hx] at htop
  have hposition := h.spans.position.toInt_eq
  have hposition' := hb'.spans.position.toInt_eq
  have hholding' : ¬ b'.top.IsHolding := by
    rw [htop]
    exact hholding
  refine ⟨b', hask, ⟨?_, ?_, htop, ?_⟩⟩
  · rw [hb'.items_eq, z.items_inserted, h.items_eq, hposition, Int.toNat_natCast]
  · rw [hposition', hposition, Zipper.inserted, List.length_cons]
    exact Int.natCast_succ z.back.length
  · -- The insertion has left the cursor without an element that it could remove.
    exact remove_of_untouched hholding' hb' (Zipper.touched_of_uncrossed rfl)

theorem undone_of_unchanged (hcall : ∀ x, call ≠ .add x)
    (h : ∀ e, r = .error e → call.IsEdit → b' = b) : Undone fuel verdict call b r b' where
  atomic e hr hedit _ := h e hr hedit
  torn x _ hx := absurd hx (hcall x)

theorem undone_remove (h : b.Shows bound z)
    (hask : Call.remove.ask (onBench fuel verdict) b = .of r b') :
    Undone fuel verdict .remove b r b' := by
  apply undone_of_unchanged nofun
  rintro e rfl -
  obtain ⟨e', hremove⟩ | ⟨b₁, hremove⟩ := remove_cases fuel verdict h
  · have hask' := Call.ask_remove_of (r := .error e') hremove
    exact (Outcome.of_inj (hask.symm.trans hask')).2
  · have hask' := Call.ask_remove_of (r := .ok ()) hremove
    exact nomatch (Outcome.of_inj (hask.symm.trans hask')).1

theorem undone_set (h : b.Shows bound z) {x : α}
    (hask : (Call.set x).ask (onBench fuel verdict) b = .of r b') :
    Undone fuel verdict (.set x) b r b' := by
  apply undone_of_unchanged nofun
  rintro e rfl -
  obtain ⟨e', hset⟩ | ⟨b₁, hset⟩ := set_cases fuel verdict h x
  · have hask' := Call.ask_set_of (r := .error e') hset
    exact (Outcome.of_inj (hask.symm.trans hask')).2
  · have hask' := Call.ask_set_of (r := .ok ()) hset
    exact nomatch (Outcome.of_inj (hask.symm.trans hask')).1

theorem undone_add (h : b.Shows bound z) (hroom : z.items.length < bound) {x : α}
    (hask : (Call.add x).ask (onBench fuel verdict) b = .of r b') :
    Undone fuel verdict (.add x) b r b' := by
  by_cases hholding : b.top.IsHolding
  · have hask' : (Call.add x).ask (onBench fuel verdict) b
        = .of (.error (.heldAhead .add true)) b :=
      Call.ask_add_of (r := .error _) (add_of_holding hholding x)
    obtain ⟨-, rfl⟩ := Outcome.of_inj (hask.symm.trans hask')
    exact ⟨fun _ _ _ _ => rfl, fun _ _ _ _ hfree => absurd hholding hfree⟩
  · cases hx : verdict x with
    | ok accepted =>
        obtain ⟨b₁, hask', -, -⟩ := ask_add_of_not_holding fuel verdict hholding h hroom x
        rw [hx] at hask'
        obtain ⟨rfl, -⟩ := Outcome.of_inj (hask.symm.trans hask')
        refine ⟨nofun, ?_⟩
        rintro y e ⟨⟩ hy -
        exact nomatch hx.symm.trans hy
    | error e =>
        obtain ⟨b₁, hask', htorn⟩ := torn_of_error fuel h hroom hholding hx
        obtain ⟨rfl, rfl⟩ := Outcome.of_inj (hask.symm.trans hask')
        refine ⟨fun _ _ _ hspoils => absurd ⟨hholding, x, e, rfl, hx⟩ hspoils, ?_⟩
        rintro y e' ⟨⟩ hy -
        obtain rfl := Except.error.inj (hx.symm.trans hy)
        exact ⟨rfl, htorn⟩

theorem undone_of_ask (h : b.Shows bound z) (hroom : z.items.length < bound)
    (hask : call.ask (onBench fuel verdict) b = .of r b') :
    Undone fuel verdict call b r b' := by
  cases call with
  | remove => exact undone_remove h hask
  | set x => exact undone_set h hask
  | add x => exact undone_add h hroom hask
  | next | previous | hasNext | hasPrevious =>
      exact undone_of_unchanged nofun fun _ _ hedit => hedit.elim

end

/-! ## §3. Every run. -/

/-- **Failed edits are atomic but for one case.**  Along every run of calls, an edit that fails
leaves the list, the cursor and the filter exactly as they were, unless it is an insertion on whose
element the predicate fails; such an insertion is left half done. -/
theorem failed_edits_atomic (verdict : α → Except Failure Bool) (xs : List α) {start : Place}
    {n fuel : Nat} (calls : List (Call α)) (hn : n ≤ xs.length)
    (hstart : start.StandsAt n (xs.length + calls.length))
    (hfuel : xs.length + calls.length < fuel) :
    Throughout (Call.ask (onBench fuel verdict)) (fun _ _ _ _ _ => ())
      (fun _ call b r b' => Undone fuel verdict call b r b') calls ()
      { items := xs, cursor := { position := start }, top := {} } := by
  have hnew := tracks_ofList verdict hstart hn (Nat.le_add_right _ _)
  refine throughout_of_invariant
    (fun k _ b => (∃ l z, Tracks verdict (xs.length + calls.length) z l b)
      ∧ b.items.length + k ≤ xs.length + calls.length)
    ?_ ⟨⟨_, _, hnew⟩, Nat.le_refl _⟩
  rintro k - b call - ⟨⟨l, z, h⟩, hroom⟩
  have hlt : b.items.length < xs.length + calls.length := by omega
  have hlong : b.items.length < fuel := by omega
  obtain ⟨r, b', hask, -, hlen, z', h'⟩ := h.kept hlt hlong call
  refine ⟨r, b', hask, undone_of_ask h.shows ?_ hask, ⟨_, z', h'⟩, by omega⟩
  rw [← h.shows.items_eq]
  exact hlt

/-- A run with an insertion that is refused, one that succeeds and one that is left half done. -/
theorem failed_edits_atomic_evenExceptThree :
    0 ≤ [2, 4].length
      ∧ (Place.plain 0).StandsAt 0 7
      ∧ Throughout (Call.ask (onBench 8 evenExceptThree)) (fun _ _ _ _ _ => ())
        (fun _ call b r b' => Undone 8 evenExceptThree call b r b')
        [.hasNext, .add 6, .next, .add 3, .remove] ()
        { items := [2, 4], cursor := { position := .plain 0 }, top := {} } := by
  have hstart : (Place.plain 0).StandsAt 0 7 := Place.standsAt_plain (by decide)
  exact ⟨Nat.zero_le _, hstart, failed_edits_atomic evenExceptThree [2, 4]
    [.hasNext, .add 6, .next, .add 3, .remove] (Nat.zero_le _) hstart (by decide)⟩

/-- The list, the cursor and the index are the same, and so is whether a removal is accepted. -/
structure Unchanged (fuel : Nat) (verdict : α → Except Failure Bool)
    (b b' : Bench α (ListFilter α)) : Prop where
  items_eq : b'.items = b.items
  cursor_eq : b'.cursor = b.cursor
  nextIndex_eq : b'.top.index = b.top.index
  remove_iff : (∃ s, (onBench fuel verdict).remove b' = .value () s)
    ↔ ∃ s, (onBench fuel verdict).remove b = .value () s

/-- Not every edit that fails leaves all of this as it was: after `2` was returned, an insertion of
`3` puts it into the list, and then fails. -/
theorem failed_edits_not_always_atomic :
    ¬ Throughout (Call.ask (onBench 8 evenExceptThree)) (fun _ _ _ _ _ => ())
      (fun _ call b r b' => ∀ e, r = .error e → call.IsEdit → Unchanged 8 evenExceptThree b b')
      [.next, .add 3] () { items := [2, 4], cursor := { position := .plain 0 }, top := {} } := by
  rintro ⟨r₁, b₁, h₁, -, r₂, b₂, h₂, hatomic, -⟩
  have hnext : Call.next.ask (onBench 8 evenExceptThree) ⟨[2, 4], {}, {}⟩
      = .of (.ok (.element 2)) ⟨[2, 4], ⟨.plain 1, some (.plain 0)⟩,
          { index := 1, moved := some .forward }⟩ := by
    unfold evenExceptThree
    rfl
  obtain ⟨rfl, rfl⟩ := Outcome.of_inj (hnext.symm.trans h₁)
  have hadd : (Call.add 3).ask (onBench 8 evenExceptThree)
        ⟨[2, 4], ⟨.plain 1, some (.plain 0)⟩, { index := 1, moved := some .forward }⟩
      = .of (.error (.raised "ValueError" none)) ⟨[2, 3, 4], ⟨.plain 2, none⟩,
          { index := 1, moved := some .forward }⟩ := by
    unfold evenExceptThree
    rfl
  obtain ⟨rfl, rfl⟩ := Outcome.of_inj (hadd.symm.trans h₂)
  have hitems : [2, 3, 4] = [2, 4] := (hatomic _ rfl trivial).items_eq
  exact absurd hitems (by decide)

end ListFilter

end Cursors
