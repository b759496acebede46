/-
  Cursors.Proofs.Transform.Removal
  ────────────────────────────────
  **WHICH ELEMENT A TRANSFORMATION REMOVES.**

  A transformation advances its source and then calls its function.  If the
  function fails, nothing is returned, and yet the cursor has crossed an
  element: it has strayed from the one whose image was returned last, and a
  removal falls on the element that the function failed on.

  The receipt is kept beside a run and never consulted by it:

      given     the image returned last, and the index of the element that
                it is the image of, since the start and since the last
                successful removal
      strayed   a step has failed in the function since

  Main result (`removals_of_images`): along every run of calls, a removal
  that succeeds removes the element on the receipt exactly if the cursor has
  not strayed.
-/
import Cursors.Combinator.Transform
import Cursors.Proofs.After
import Cursors.Proofs.Ledger

namespace Cursors

namespace Transform

variable {α β : Type}

/-! ## §1. Receipts. -/

/-- What is remembered of the image returned last. -/
structure Receipt (β : Type) where
  given : Option (Nat × β) := none
  strayed : Bool := false
  deriving Repr, DecidableEq

/-- The transformation of a cursor in a list by a function that may fail. -/
def onBench (f : α → Except Failure β) : Forward (Bench α Unit) β :=
  Bench.source.toForward.transform fun x => Act.ofExcept (f x)

/-- The receipt after a call; a step that fails at the end of the list has crossed nothing. -/
def note (l : Receipt β) (call : Pull) (b : Bench α Unit) (r : Except Failure (Answer β))
    (b' : Bench α Unit) : Receipt β :=
  match call, r with
  | .next, .ok (.element y) => { given := b'.cursor.touched.map (·, y) }
  | .next, .error _ => if b'.cursor = b.cursor then l else { l with strayed := true }
  | .remove, .ok _ => {}
  | _, _ => l

section

variable (f : α → Except Failure β)

/-- The receipt names an element of the list and its image. -/
def Receipt.Valid (l : Receipt β) (xs : List α) : Prop :=
  ∀ i y, l.given = some (i, y) → ∃ x, xs[i]? = some x ∧ f x = .ok y

/-- A removal that succeeds removes the element on the receipt, unless the cursor has strayed; then
it removes an element that the function fails on.  One that fails is refused and changes nothing. -/
structure Removes (l : Receipt β) (b : Bench α Unit) (r : Except Failure (Answer β))
    (b' : Bench α Unit) : Prop where
  refused : ∀ e, r = .error e → e.kind = "IllegalStateError" ∧ b' = b
  steady : l.strayed = false → ∀ a, r = .ok a →
    ∃ i y, l.given = some (i, y) ∧ b'.items = b.items.eraseIdx i
  astray : l.strayed = true →
    r = .ok .done ∧ ∃ i x e, b.items[i]? = some x ∧ f x = .error e ∧ b'.items = b.items.eraseIdx i

/-- A call in a run: the receipt is valid, a step that succeeds is entered into it, and a removal
goes where it says. -/
structure Treats (l : Receipt β) (call : Pull) (b : Bench α Unit)
    (r : Except Failure (Answer β)) (b' : Bench α Unit) : Prop where
  valid : l.Valid f b.items
  items_eq : call ≠ .remove → b'.items = b.items
  returns : ∀ y, r = .ok (.element y) → ∃ i x, (note l call b r b').given = some (i, y)
    ∧ b.items[i]? = some x ∧ f x = .ok y
  removes : call = .remove → Removes f l b r b'

/-- The receipt and the cursor belong together. -/
structure Tracks (bound : Nat) (z : Zipper α) (l : Receipt β) (b : Bench α Unit) : Prop where
  shows : b.Shows bound z
  valid : l.Valid f z.items
  steady : l.strayed = false → ∀ i, z.touched = some i → ∃ y, l.given = some (i, y)
  astray : l.strayed = true →
    ∃ i x e, z.touched = some i ∧ z.items[i]? = some x ∧ f x = .error e

/-- A call comes to something and keeps the receipt and the cursor together. -/
def Kept (bound : Nat) (l : Receipt β) (b : Bench α Unit) (call : Pull) : Prop :=
  ∃ r b', call.ask (onBench f) b = .of r b' ∧ Treats f l call b r b'
    ∧ ∃ z', Tracks f bound z' (note l call b r b') b'

end

variable {f : α → Except Failure β} {bound : Nat} {z : Zipper α} {l : Receipt β}
  {b b' : Bench α Unit}

theorem valid_of_none (h : l.given = none) (xs : List α) : l.Valid f xs := by
  intro i y hgiven
  exact nomatch h.symm.trans hgiven

/-! ## §2. One call. -/

theorem Tracks.valid_items (h : Tracks f bound z l b) : l.Valid f b.items := by
  rw [h.shows.items_eq]
  exact h.valid

/-- A call that changes nothing and returns no element. -/
theorem Tracks.unchanged (h : Tracks f bound z l b) {call : Pull} {r : Except Failure (Answer β)}
    (hask : call.ask (onBench f) b = .of r b) (hnote : note l call b r b = l)
    (hr : ∀ y, r ≠ .ok (.element y)) (hremove : call = .remove → Removes f l b r b) :
    Kept f bound l b call := by
  refine ⟨r, b, hask, ⟨h.valid_items, fun _ => rfl, fun y hy => absurd hy (hr y), hremove⟩, z, ?_⟩
  rw [hnote]
  exact h

theorem Tracks.hasNext (h : Tracks f bound z l b) : Kept f bound l b .hasNext := by
  have hask : (onBench f).hasNext b = .of (.ok (!z.front.isEmpty)) b :=
    Bench.hasMore_apply h.shows .forward
  exact h.unchanged (Pull.ask_hasNext_of hask) rfl (by simp [Except.map]) nofun

/-- After a forward crossing the element crossed is the one that the cursor crossed last. -/
theorem touched_of_front {x : α} {rest : List α} (hfront : z.front = x :: rest) :
    (z.cross .forward 1).touched = some z.back.length ∧ z.items[z.back.length]? = some x := by
  constructor
  · simp [Zipper.cross, Zipper.touched, hfront]
  · simp [Zipper.items, hfront]

/-- A cursor that has crossed an element is not where it was. -/
theorem cursor_ne_of_crossed (hb : b.Shows bound z) (hb' : b'.Shows bound (z.cross .forward 1))
    {x : α} {rest : List α} (hfront : z.front = x :: rest) : b'.cursor ≠ b.cursor := by
  intro heq
  have hback := hb'.spans.position.toInt_eq
  rw [heq, hb.spans.position.toInt_eq] at hback
  simp only [Zipper.cross, hfront, List.length_append, List.length_reverse, List.take_succ_cons,
    List.take_zero, List.length_singleton] at hback
  omega

/-- The next element is crossed before the function is called on it. -/
theorem next_of_front (hb : b.Shows bound z) {x : α} {rest : List α}
    (hfront : z.front = x :: rest) :
    ∃ b', (onBench f).next b = .of (f x) b' ∧ b'.Shows bound (z.cross .forward 1)
      ∧ b'.items = b.items := by
  obtain ⟨b', hstep, hb', -⟩ := Bench.step_of_toward_cons hb (d := .forward) hfront
  have hvalue : Bench.source.next b = .value x b' := hstep
  refine ⟨b', ?_, hb', ?_⟩
  · show (Bench.source.next >>= fun x => Act.ofExcept (f x)) b = _
    rw [Act.bind_apply, hvalue]
    exact Act.ofExcept_apply (f x) b'
  · rw [hb'.items_eq, z.items_cross, hb.items_eq]

theorem next_of_nil (hb : b.Shows bound z) (hfront : z.front = []) :
    (onBench f).next b = .of (.error .ended) b := by
  have hstep : Bench.source.next b = .failure .ended b :=
    Cursor.step_of_toward_nil hb.list_get hb.here_get (d := .forward) hfront
  show (Bench.source.next >>= fun x => Act.ofExcept (f x)) b = _
  rw [Act.bind_apply, hstep]
  rfl

/-- An image that is returned is entered into the receipt. -/
theorem Tracks.next_of_ok (h : Tracks f bound z l b) {x : α} {rest : List α} {y : β}
    (hfront : z.front = x :: rest) (hfx : f x = .ok y) : Kept f bound l b .next := by
  obtain ⟨b', hask, hb', hitems⟩ := next_of_front (f := f) h.shows hfront
  rw [hfx] at hask
  obtain ⟨htouched, hx⟩ := touched_of_front hfront
  have hcursor : b'.cursor.touched = some z.back.length := by
    rw [hb'.spans.touched_eq, htouched]
  have hnote : note l .next b (.ok (.element y)) b' = { given := some (z.back.length, y) } := by
    simp only [note, hcursor, Option.map_some]
  refine ⟨_, b', Pull.ask_next_of hask, ⟨h.valid_items, fun _ => hitems, ?_, nofun⟩,
    z.cross .forward 1, ?_⟩
  · intro y' hy'
    obtain rfl : y = y' := Answer.element.inj (Except.ok.inj hy')
    refine ⟨z.back.length, x, congrArg Receipt.given hnote, ?_, hfx⟩
    rw [h.shows.items_eq]
    exact hx
  · show Tracks f bound _ (note l .next b (.ok (.element y)) b') b'
    rw [hnote]
    refine ⟨hb', ?_, ?_, nofun⟩
    · rintro i y' ⟨⟩
      rw [z.items_cross]
      exact ⟨x, hx, hfx⟩
    · intro _ i hi
      obtain rfl := Option.some.inj (htouched.symm.trans hi)
      exact ⟨y, rfl⟩

/-- Where the function fails, the cursor strays from the receipt. -/
theorem Tracks.next_of_error (h : Tracks f bound z l b) {x : α} {rest : List α} {e : Failure}
    (hfront : z.front = x :: rest) (hfx : f x = .error e) : Kept f bound l b .next := by
  obtain ⟨b', hask, hb', hitems⟩ := next_of_front (f := f) h.shows hfront
  rw [hfx] at hask
  obtain ⟨htouched, hx⟩ := touched_of_front hfront
  have hnote : note l .next b (.error e) b' = { l with strayed := true } :=
    if_neg (cursor_ne_of_crossed h.shows hb' hfront)
  refine ⟨_, b', Pull.ask_next_of hask, ⟨h.valid_items, fun _ => hitems, nofun, nofun⟩,
    z.cross .forward 1, ?_⟩
  show Tracks f bound _ (note l .next b (.error e) b') b'
  rw [hnote]
  refine ⟨hb', ?_, nofun, fun _ => ⟨_, x, e, htouched, ?_, hfx⟩⟩
  · rw [z.items_cross]
    exact h.valid
  · rw [z.items_cross]
    exact hx

theorem Tracks.next (h : Tracks f bound z l b) : Kept f bound l b .next := by
  cases hfront : z.front with
  | nil =>
      exact h.unchanged (Pull.ask_next_of (next_of_nil h.shows hfront)) (if_pos rfl) nofun nofun
  | cons x rest =>
      cases hfx : f x with
      | ok y => exact h.next_of_ok hfront hfx
      | error e => exact h.next_of_error hfront hfx

/-- A removal falls on the element that the cursor crossed last. -/
theorem Tracks.remove (h : Tracks f bound z l b) : Kept f bound l b .remove := by
  cases htouched : z.touched with
  | none =>
      have hask : (onBench f).remove b = .of (.error (.notMoved .remove true)) b :=
        Bench.remove_of_untouched h.shows htouched
      refine h.unchanged (Pull.ask_remove_of hask) rfl nofun fun _ => ⟨?_, nofun, ?_⟩
      · rintro e ⟨⟩
        exact ⟨rfl, rfl⟩
      · intro hstrayed
        obtain ⟨i, -, -, hi, -⟩ := h.astray hstrayed
        exact nomatch htouched.symm.trans hi
  | some i =>
      obtain ⟨b', hremove, hb', -⟩ := Bench.remove_of_touched h.shows htouched
      have hask : (onBench f).remove b = .of (.ok ()) b' := hremove
      have hitems : b'.items = b.items.eraseIdx i := by
        rw [hb'.items_eq, Zipper.items_removed htouched, h.shows.items_eq]
      have huntouched : z.removed.touched = none :=
        Zipper.touched_of_uncrossed z.crossed_removed
      refine ⟨_, b', Pull.ask_remove_of hask,
        ⟨h.valid_items, fun hne => absurd rfl hne, nofun, fun _ => ⟨nofun, ?_, ?_⟩⟩,
        z.removed, hb', valid_of_none rfl _, ?_, nofun⟩
      · intro hsteady _ _
        obtain ⟨y, hy⟩ := h.steady hsteady i htouched
        exact ⟨i, y, hy, hitems⟩
      · intro hstrayed
        obtain ⟨j, x, e, hj, hx, hfx⟩ := h.astray hstrayed
        obtain rfl := Option.some.inj (htouched.symm.trans hj)
        rw [← h.shows.items_eq] at hx
        exact ⟨rfl, i, x, e, hx, hfx, hitems⟩
      · intro _ j hj
        exact nomatch huntouched.symm.trans hj

/-! ## §3. Every run. -/

theorem Tracks.kept (h : Tracks f bound z l b) (call : Pull) : Kept f bound l b call := by
  cases call with
  | next => exact h.next
  | hasNext => exact h.hasNext
  | remove => exact h.remove

/-- **What a removal falls on.**  Along every run of a transformation of a cursor in a list, for
every function that may fail, a removal that succeeds removes the element whose image was returned
last, unless a step has failed in the function since; then it removes an element on which the
function fails. -/
theorem removals_of_images (f : α → Except Failure β) (xs : List α) {start : Place} {n : Nat}
    (calls : List Pull) (hn : n ≤ xs.length) (hstart : start.StandsAt n xs.length) :
    Throughout (Pull.ask (onBench f)) note (Treats f) calls {}
      { items := xs, cursor := { position := start }, top := () } := by
  have huntouched : (Zipper.ofList xs n).touched = none := Zipper.touched_of_uncrossed rfl
  have hnew : Tracks f xs.length (.ofList xs n) {}
      { items := xs, cursor := { position := start }, top := () } :=
    ⟨⟨(Zipper.items_ofList xs n).symm, Cursor.spans_ofList hstart hn (Nat.le_refl _)⟩,
      valid_of_none rfl _, fun _ i hi => absurd (huntouched.symm.trans hi) nofun, nofun⟩
  refine throughout_of_invariant (fun _ l b => ∃ z, Tracks f xs.length z l b) ?_ ⟨_, hnew⟩
  rintro k l b call - ⟨z, h⟩
  exact h.kept call

/-- The function that adds ten and fails on `2`. -/
def raisedByTen (x : Nat) : Except Failure Nat :=
  if x = 2 then .error (.raised "ValueError" none) else .ok (x + 10)

/-- A run with a removal after a step that succeeded, and one after a step that failed. -/
theorem removals_of_images_raisedByTen :
    0 ≤ [1, 3, 2].length
      ∧ (Place.plain 0).StandsAt 0 [1, 3, 2].length
      ∧ Throughout (Pull.ask (onBench raisedByTen)) note (Treats raisedByTen)
        [.next, .remove, .next, .next, .remove] {}
        { items := [1, 3, 2], cursor := { position := .plain 0 }, top := () } := by
  have hstart : (Place.plain 0).StandsAt 0 [1, 3, 2].length := Place.standsAt_plain (Nat.zero_le _)
  exact ⟨Nat.zero_le _, hstart,
    removals_of_images raisedByTen [1, 3, 2] _ (Nat.zero_le _) hstart⟩

/-- A removal that succeeds removes the element whose image was returned last. -/
def Meant (f : α → Except Failure β) (l : Receipt β) (call : Pull) (b : Bench α Unit)
    (r : Except Failure (Answer β)) (b' : Bench α Unit) : Prop :=
  call = .remove → ∀ a, r = .ok a → ∃ i x y, l.given = some (i, y) ∧ b.items[i]? = some x
    ∧ f x = .ok y ∧ b'.items = b.items.eraseIdx i

/-- Not every removal is meant: after `11`, the image of `1`, was returned and the step over `2` has
failed, `2` is removed. -/
theorem removals_not_always_of_images :
    ¬ Throughout (Pull.ask (onBench raisedByTen)) note (Meant raisedByTen)
      [.next, .next, .remove] {}
      { items := [1, 2], cursor := { position := .plain 0 }, top := () } := by
  rintro ⟨r₁, b₁, h₁, -, r₂, b₂, h₂, -, r₃, b₃, h₃, hmeant, -⟩
  have hfirst : Pull.next.ask (onBench raisedByTen) ⟨[1, 2], {}, ()⟩
      = .of (.ok (.element 11)) ⟨[1, 2], ⟨.plain 1, some (.plain 0)⟩, ()⟩ := by
    unfold raisedByTen
    rfl
  obtain ⟨rfl, rfl⟩ := Outcome.of_inj (hfirst.symm.trans h₁)
  have hsecond : Pull.next.ask (onBench raisedByTen) ⟨[1, 2], ⟨.plain 1, some (.plain 0)⟩, ()⟩
      = .of (.error (.raised "ValueError" none)) ⟨[1, 2], ⟨.plain 2, some (.plain 1)⟩, ()⟩ := by
    unfold raisedByTen
    rfl
  obtain ⟨rfl, rfl⟩ := Outcome.of_inj (hsecond.symm.trans h₂)
  have hremove : Pull.remove.ask (onBench raisedByTen) ⟨[1, 2], ⟨.plain 2, some (.plain 1)⟩, ()⟩
      = .of (.ok .done) ⟨[1], ⟨.plain 1, none⟩, ()⟩ := rfl
  obtain ⟨rfl, rfl⟩ := Outcome.of_inj (hremove.symm.trans h₃)
  obtain ⟨i, x, y, hgiven, -, -, hitems⟩ := hmeant rfl _ rfl
  have hgiven' : some (0, 11) = some (i, y) := hgiven
  obtain ⟨rfl, -⟩ := Prod.mk.inj (Option.some.inj hgiven')
  have hitems' : [1] = [2] := hitems
  exact absurd hitems' (by decide)

end Transform

end Cursors
