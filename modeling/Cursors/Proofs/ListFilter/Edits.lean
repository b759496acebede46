/-
  Cursors.Proofs.ListFilter.Edits
  ───────────────────────────────
  **WHICH ELEMENT A TWO-WAY FILTER EDITS.**

  The filter passes an edit on to the cursor below it while no match is
  held.  A search that finds nothing holds nothing either, and yet it has
  moved the cursor: the cursor has strayed from the element returned last.

  Main result (`edits_trusted`): along every run of calls, an edit that is
  not refused falls on the element returned last exactly if the cursor has
  not strayed.  A removal is refused when a match is held or nothing was
  returned since the last removal or insertion; a replacement is refused
  in the first case only.
-/
import Cursors.Proofs.Ledger
import Cursors.Proofs.ListFilter.Search

namespace Cursors

namespace ListFilter

variable {α : Type} {verdict : α → Except Failure Bool} {bound fuel : Nat} {l : Ledger}
  {z : Zipper α} {b b' : Bench α (ListFilter α)}

/-! ## §1. What one call does. -/

/-- A call in a run: a move that succeeds enters the element that it returns into the ledger,
and an edit goes where the ledger says, unless the cursor has strayed. -/
structure Treats (l : Ledger) (call : Call α) (b : Bench α (ListFilter α))
    (r : Except Failure (Answer α)) (b' : Bench α (ListFilter α)) : Prop where
  returns : ∀ x, r = .ok (.element x) → b'.items = b.items
    ∧ ∃ i, (l.record call r b b').returned = some i ∧ b'.items[i]? = some x
  edits : ∀ change, call.change = some change →
    Trusted (b.top.IsHolding ∨ (call = .remove ∧ l.returned = none)) l change b r b'

/-- The ledger, the filter and its cursor belong together. -/
structure Tracks (verdict : α → Except Failure Bool) (bound : Nat) (z : Zipper α) (l : Ledger)
    (b : Bench α (ListFilter α)) : Prop where
  shows : b.Shows bound z
  sound : Sound verdict z b.top
  moved_iff : b.top.moved = none ↔ l.returned = none
  follows : ¬ b.top.IsHolding → l.Follows z

/-- A call comes to an answer and keeps the ledger and the filter together. -/
def Kept (verdict : α → Except Failure Bool) (bound fuel : Nat) (l : Ledger)
    (b : Bench α (ListFilter α)) (call : Call α) : Prop :=
  ∃ r b', call.ask (onBench fuel verdict) b = .of r b' ∧ Treats l call b r b'
    ∧ b'.items.length ≤ b.items.length + 1
    ∧ ∃ z', Tracks verdict bound z' (l.record call r b b') b'

/-- A call that is not an edit and returns nothing is treated well. -/
theorem treats_of_neither {call : Call α} {r : Except Failure (Answer α)}
    (hcall : call.change = none) (hr : ∀ x, r ≠ .ok (.element x)) : Treats l call b r b' where
  returns x hx := absurd hx (hr x)
  edits change hchange := by rw [hcall] at hchange; exact absurd hchange (by simp)

theorem treats_of_asked (d : Direction) (r : Except Failure Bool) :
    Treats l (Call.hasMore d) b (r.map .truth) b' := by
  apply treats_of_neither (Call.change_hasMore d)
  cases r <;> simp [Except.map]

theorem treats_of_returned {d : Direction} {x : α} {i : Nat} (hitems : b'.items = b.items)
    (hi : b'.cursor.touched = some i) (hx : b'.items[i]? = some x) :
    Treats l (Call.step d) b (.ok (.element x)) b' where
  returns y hy := by
    obtain rfl : x = y := by simpa using hy
    refine ⟨hitems, i, ?_, hx⟩
    rw [Ledger.record_step_element, hi]
  edits change hchange := by rw [Call.change_step] at hchange; exact absurd hchange (by simp)

/-- An edit is treated well if it can be trusted. -/
theorem treats_of_trusted {call : Call α} {change : List α → Nat → List α}
    {r : Except Failure (Answer α)} (hcall : call.change = some change)
    (hr : ∀ x, r ≠ .ok (.element x))
    (h : Trusted (b.top.IsHolding ∨ (call = .remove ∧ l.returned = none)) l change b r b') :
    Treats l call b r b' where
  returns x hx := absurd hx (hr x)
  edits change' hchange := by
    rw [hcall, Option.some.injEq] at hchange
    rw [← hchange]
    exact h

/-! ## §2. Moves and questions. -/

/-- A call that came to no match leaves nothing held and the ledger right. -/
theorem Tracks.kept_of_skipped (h : Tracks verdict bound z l b) {d : Direction} {call : Call α}
    {r : Except Failure (Answer α)} (hask : call.ask (onBench fuel verdict) b = .of r b')
    (htreats : Treats l call b r b') (hrecord : l.record call r b b' = l.skip b b')
    (hd : b.top.held d = none)
    (hb' : b'.Shows bound ((gap z b.top).cross d (passed verdict ((gap z b.top).toward d))))
    (htop : b'.top = b.top.hold d.opposite none) : Kept verdict bound fuel l b call := by
  obtain ⟨n, hcross, hn, hfree⟩ := h.sound.cross_passed hd
  rw [hcross] at hb'
  have hitems : b'.items = b.items := by
    rw [hb'.items_eq, h.shows.items_eq, z.items_cross]
  refine ⟨r, b', hask, htreats, by rw [hitems]; exact Nat.le_succ _, z.cross d n, ?_⟩
  rw [hrecord]
  constructor
  · exact hb'
  · apply sound_of_free
    rw [htop]
    exact held_of_hold_none hd
  · rw [htop, moved_hold, l.returned_skip, h.moved_iff]
  · intro _
    -- The cursor has stayed where it was only if nothing was held before.
    exact Ledger.follows_skip h.shows d hb' hn fun h0 => h.follows (hfree h0)

/-- A move that crossed an element leaves the ledger right, whatever it was before. -/
theorem kept_of_returned {d : Direction} {x : α} {rest : List α}
    (hask : (Call.step d).ask (onBench fuel verdict) b = .of (.ok (.element x)) b')
    (hitems : b'.items = b.items) (hb' : b'.Shows bound z) (hcrossed : z.crossed = some d)
    (hback : z.toward d.opposite = x :: rest) (hfree : ∀ e, b'.top.held e = none)
    (hmoved : b'.top.moved = some d) : Kept verdict bound fuel l b (Call.step d) := by
  obtain ⟨i, hi, hxi⟩ := Zipper.touched_of_toward hcrossed hback
  have htouched : b'.cursor.touched = some i := hb'.spans.touched_eq.trans hi
  refine ⟨_, b', hask, treats_of_returned hitems htouched (by rw [hb'.items_eq, hxi]),
    by rw [hitems]; exact Nat.le_succ _, z, ?_⟩
  rw [Ledger.record_step_element, htouched]
  constructor
  · exact hb'
  · exact sound_of_free hfree
  · simp [hmoved]
  · intro _
    exact Ledger.follows_of_touched hi

/-- The question for a match that is held changes nothing. -/
theorem Tracks.hasMore_of_held (h : Tracks verdict bound z l b) {d : Direction} {x : α}
    (hd : b.top.held d = some x) : Kept verdict bound fuel l b (Call.hasMore d) := by
  have hask : (onBench fuel verdict).hasMore d b = .of (.ok true) b :=
    ListFilter.hasMore_of_held (by rw [hd]; rfl)
  refine ⟨_, b, Call.ask_hasMore_of hask, treats_of_asked d _, Nat.le_succ _, z, ?_⟩
  rw [Except.map, Ledger.record_hasMore_true]
  exact h

/-- The question for a match that is not held holds it if there is one. -/
theorem Tracks.hasMore_of_free (h : Tracks verdict bound z l b)
    (hfuel : z.items.length < fuel) {d : Direction} (hd : b.top.held d = none) :
    Kept verdict bound fuel l b (Call.hasMore d) := by
  obtain ⟨b', hask, hb', htop⟩ := hasMore_of_not_held h.shows h.sound hfuel hd
  have hnone := held_of_hold_none hd
  obtain ⟨pre, x, post, hys, -, hx, hlook, hpassed⟩ | ⟨-, hlook, -⟩ |
    ⟨-, -, -, e, -, -, -, hlook, -⟩ := look_cases verdict ((gap z b.top).toward d)
  · -- No edit gets through while the match is held, so that the ledger need not be right.
    rw [hlook, sighted] at htop
    rw [hlook] at hask
    rw [hpassed] at hb'
    have hheld : b'.top.held d = some x := by rw [htop, held_hold]
    have hother : b'.top.held d.opposite = none := by
      rw [htop, held_opposite_hold, held_hold]
    have hitems : b'.items = b.items := by
      rw [hb'.items_eq, h.shows.items_eq, Zipper.items_cross, items_gap]
    refine ⟨_, b', Call.ask_hasMore_of hask, treats_of_asked d _,
      by rw [hitems]; exact Nat.le_succ _, (gap z b.top).cross d (pre.length + 1), ?_⟩
    show Tracks verdict bound _ (l.record (Call.hasMore d) (.ok (.truth true)) b b') b'
    rw [Ledger.record_hasMore_true]
    constructor
    · exact hb'
    · exact sound_of_found hys hx hheld hother
    · rw [htop, moved_hold, moved_hold, h.moved_iff]
    · intro hnot
      exact absurd (isHolding_of_held (d := d) (by rw [hheld]; rfl)) hnot
  · rw [hlook, sighted, hold_of_held (hnone d)] at htop
    rw [hlook] at hask
    exact h.kept_of_skipped (Call.ask_hasMore_of hask) (treats_of_asked d _)
      (Ledger.record_hasMore_false d) hd hb' htop
  · rw [hlook, sighted, hold_of_held (hnone d)] at htop
    rw [hlook] at hask
    exact h.kept_of_skipped (Call.ask_hasMore_of hask) (treats_of_asked d _)
      (Ledger.record_hasMore_error d e) hd hb' htop

theorem Tracks.hasMore (h : Tracks verdict bound z l b) (hfuel : b.items.length < fuel)
    (d : Direction) : Kept verdict bound fuel l b (Call.hasMore d) := by
  rw [h.shows.items_eq] at hfuel
  cases hd : b.top.held d with
  | some x => exact h.hasMore_of_held hd
  | none => exact h.hasMore_of_free hfuel hd

/-- A move returns the match that is held: the cursor has crossed it before. -/
theorem Tracks.step_of_held (h : Tracks verdict bound z l b) {d : Direction} {x : α}
    (hd : b.top.held d = some x) : Kept verdict bound fuel l b (Call.step d) := by
  obtain ⟨-, hcrossed, rest, hrest⟩ := h.sound.near d x hd
  have hother : b.top.held d.opposite = none := h.sound.single d (by rw [hd]; rfl)
  have hask : (onBench fuel verdict).step d b
      = .of (.ok x) { b with top := b.top.counted d } := ListFilter.step_of_held hd
  exact kept_of_returned (Call.ask_step_of hask) rfl (h.shows.withTop _) hcrossed hrest
    (held_counted_of_single hother) (moved_counted _ d)

/-- A move looks for a match that is not held and returns it if there is one. -/
theorem Tracks.step_of_free (h : Tracks verdict bound z l b) (hfuel : z.items.length < fuel)
    {d : Direction} (hd : b.top.held d = none) :
    Kept verdict bound fuel l b (Call.step d) := by
  obtain ⟨b', hask, hb', htop⟩ := step_of_not_held h.shows h.sound hfuel hd
  have hnone := held_of_hold_none hd
  obtain ⟨pre, x, post, hys, -, hx, hlook, hpassed⟩ | ⟨-, hlook, -⟩ |
    ⟨-, -, -, e, -, -, -, hlook, -⟩ := look_cases verdict ((gap z b.top).toward d)
  · rw [hlook] at hask htop
    rw [hpassed] at hb'
    replace htop : b'.top = (b.top.hold d.opposite none).counted d := htop
    have hitems : b'.items = b.items := by
      rw [hb'.items_eq, h.shows.items_eq, Zipper.items_cross, items_gap]
    refine kept_of_returned (Call.ask_step_of hask) hitems hb'
      (Zipper.crossed_cross _ d (Nat.succ_pos pre.length))
      (Zipper.toward_opposite_cross_append hys) ?_ ?_
    · rw [htop]
      exact held_counted_of_single (hnone d.opposite)
    · rw [htop, moved_counted]
  · rw [hlook] at hask htop
    exact h.kept_of_skipped (Call.ask_step_of hask)
      (treats_of_neither (Call.change_step d) (by simp [taken, Except.map]))
      (Ledger.record_step_error d .ended) hd hb' htop
  · rw [hlook] at hask htop
    exact h.kept_of_skipped (Call.ask_step_of hask)
      (treats_of_neither (Call.change_step d) (by simp [taken, Except.map]))
      (Ledger.record_step_error d e) hd hb' htop

theorem Tracks.step (h : Tracks verdict bound z l b) (hfuel : b.items.length < fuel)
    (d : Direction) : Kept verdict bound fuel l b (Call.step d) := by
  rw [h.shows.items_eq] at hfuel
  cases hd : b.top.held d with
  | some x => exact h.step_of_held hd
  | none => exact h.step_of_free hfuel hd

/-! ## §3. Edits. -/

/-- An edit that is refused leaves everything as it is. -/
theorem Tracks.refused (h : Tracks verdict bound z l b) {call : Call α} {e : Failure}
    {change : List α → Nat → List α} (hcall : call.change = some change)
    (hask : call.ask (onBench fuel verdict) b = .of (.error e) b)
    (hkind : e.kind = "IllegalStateError")
    (hrefused : (b.top.IsHolding ∨ (call = .remove ∧ l.returned = none)) ∨ l.strayed = false) :
    Kept verdict bound fuel l b call := by
  refine ⟨_, b, hask,
    treats_of_trusted hcall (by simp) (trusted_of_refused hkind hrefused),
    Nat.le_succ _, z, ?_⟩
  rw [Ledger.record_error_of_change hcall]
  exact h

/-- An insertion forgets what was returned, unless the predicate fails on the new element. -/
theorem Tracks.inserted (h : Tracks verdict bound z l b) (hroom : z.items.length < bound)
    (hholding : ¬ b.top.IsHolding) (x : α) : Kept verdict bound fuel l b (.add x) := by
  obtain ⟨b', hask, hb', htop⟩ :=
    ask_add_of_not_holding fuel verdict hholding h.shows hroom x
  have hlen : b'.items.length = b.items.length + 1 := by
    rw [hb'.items_eq, h.shows.items_eq, z.length_inserted]
  have hfree : ∀ e, b'.top.held e = none := by
    intro e
    rw [htop, held_added, held_of_not_holding hholding]
  have hneither : ∀ y, (verdict x).map (fun _ => (.done : Answer α)) ≠ .ok (.element y) := by
    intro y
    cases verdict x <;> simp [Except.map]
  have huntouched : (z.inserted x).touched = none := Zipper.touched_of_uncrossed rfl
  have hne : b.items.length ≠ b'.items.length := by omega
  refine ⟨_, b', hask, treats_of_neither rfl hneither, Nat.le_of_eq hlen, z.inserted x, ?_⟩
  cases hx : verdict x with
  | ok accepted =>
      have hmoved : b'.top.moved = none := by rw [htop, moved_added_of_ok hx]
      exact ⟨hb', sound_of_free hfree, by rw [hmoved]; exact ⟨fun _ => rfl, fun _ => rfl⟩,
        fun _ => Ledger.follows_of_untouched huntouched rfl⟩
  | error e =>
      -- The element is in the list all the same, and what was returned may have moved.
      rw [Except.map, Ledger.record, if_neg hne]
      refine ⟨hb', sound_of_free hfree, ?_,
        fun _ => Ledger.follows_of_untouched huntouched rfl⟩
      rw [htop, added_of_error hx, h.moved_iff, Ledger.shift, Option.map_eq_none_iff]

theorem Tracks.add (h : Tracks verdict bound z l b) (hroom : b.items.length < bound) (x : α) :
    Kept verdict bound fuel l b (.add x) := by
  rw [h.shows.items_eq] at hroom
  by_cases hholding : b.top.IsHolding
  · refine ⟨_, b, Call.ask_add_of (r := .error _) (add_of_holding hholding x),
      treats_of_neither rfl (by simp [Except.map]), Nat.le_succ _, z, ?_⟩
    rw [Except.map, Ledger.record, if_pos rfl]
    exact h
  · exact h.inserted hroom hholding x

/-- A replacement that is passed on falls on the element that the cursor crossed last. -/
theorem Tracks.replaced (h : Tracks verdict bound z l b) (hholding : ¬ b.top.IsHolding) {i : Nat}
    (hz : z.touched = some i) (x : α) : Kept verdict bound fuel l b (.set x) := by
  obtain ⟨b', hset, hb', htop⟩ := Bench.set_of_touched h.shows hz x
  have hask : (onBench fuel verdict).set x b = .of (.ok ()) b' :=
    (set_of_not_holding hholding x).trans hset
  have hitems : b'.items = b.items.set i x := by
    rw [hb'.items_eq, h.shows.items_eq, z.items_replaced hz]
  have hrefused : ¬ (b.top.IsHolding ∨ (Call.set x = .remove ∧ l.returned = none)) := by
    simp [hholding]
  have htrusted : Trusted _ l (fun xs i => xs.set i x) b (.ok .done) b' :=
    trusted_of_touched hrefused (h.follows hholding) hz (h.shows.spans.touched_eq.trans hz)
      hitems
  refine ⟨_, b', Call.ask_set_of hask, treats_of_trusted rfl (by simp [Except.map]) htrusted,
    ?_, z.replaced x, hb', ?_, ?_, ?_⟩
  · rw [hitems, List.length_set]
    exact Nat.le_succ _
  · rw [htop]
    exact sound_of_free (held_of_not_holding hholding)
  · rw [htop]
    exact h.moved_iff
  · intro _
    exact (h.follows hholding).of_touched_eq (z.touched_replaced x)

theorem Tracks.set (h : Tracks verdict bound z l b) (x : α) :
    Kept verdict bound fuel l b (.set x) := by
  by_cases hholding : b.top.IsHolding
  · exact h.refused rfl (Call.ask_set_of (r := .error _) (set_of_holding hholding x)) rfl
      (.inl (.inl hholding))
  · cases hz : z.touched with
    | none =>
        have hask : (onBench fuel verdict).set x b = .of (.error (.notMoved .set true)) b :=
          (set_of_not_holding hholding x).trans (Bench.set_of_untouched h.shows hz x)
        exact h.refused rfl (Call.ask_set_of hask) rfl
          (.inr ((h.follows hholding).steady_of_untouched hz))
    | some i => exact h.replaced hholding hz x

/-- A removal that is passed on falls on the element that the cursor crossed last. -/
theorem Tracks.removed (h : Tracks verdict bound z l b) (hholding : ¬ b.top.IsHolding)
    {m : Direction} (hm : b.top.moved = some m) {i : Nat} (hz : z.touched = some i) :
    Kept verdict bound fuel l b .remove := by
  obtain ⟨b', hremove, hb', htop⟩ := remove_of_touched fuel verdict hholding hm h.shows hz
  have hitems : b'.items = b.items.eraseIdx i := by
    rw [hb'.items_eq, h.shows.items_eq, z.items_removed hz]
  have hreturned : l.returned ≠ none := by
    rw [ne_eq, ← h.moved_iff, hm]
    simp
  have hrefused : ¬ (b.top.IsHolding
      ∨ (Call.remove (α := α) = .remove ∧ l.returned = none)) := by
    simp [hholding, hreturned]
  have htrusted := trusted_of_touched hrefused (h.follows hholding) hz
    (h.shows.spans.touched_eq.trans hz) hitems
  refine ⟨_, b', Call.ask_remove_of (r := .ok ()) hremove,
    treats_of_trusted rfl (by simp [Except.map]) htrusted, ?_, z.removed, hb', ?_, ?_, ?_⟩
  · rw [hitems, List.length_eraseIdx]
    split <;> omega
  · apply sound_of_free
    intro e
    rw [htop, held_dropped, held_of_not_holding hholding]
  · rw [htop]
    exact ⟨fun _ => rfl, fun _ => rfl⟩
  · intro _
    exact Ledger.follows_of_untouched (Zipper.touched_of_uncrossed z.crossed_removed) rfl

theorem Tracks.remove (h : Tracks verdict bound z l b) :
    Kept verdict bound fuel l b .remove := by
  by_cases hholding : b.top.IsHolding
  · exact h.refused rfl (Call.ask_remove_of (r := .error _) (remove_of_holding hholding)) rfl
      (.inl (.inl hholding))
  · cases hm : b.top.moved with
    | none =>
        exact h.refused rfl
          (Call.ask_remove_of (r := .error _) (remove_of_not_moved hholding hm)) rfl
          (.inl (.inr ⟨rfl, h.moved_iff.mp hm⟩))
    | some m =>
        cases hz : z.touched with
        | none =>
            exact h.refused rfl
              (Call.ask_remove_of (r := .error _) (remove_of_untouched hholding h.shows hz)) rfl
              (.inr ((h.follows hholding).steady_of_untouched hz))
        | some i => exact h.removed hholding hm hz

/-! ## §4. Every run. -/

theorem Tracks.kept (h : Tracks verdict bound z l b) (hroom : b.items.length < bound)
    (hfuel : b.items.length < fuel) (call : Call α) : Kept verdict bound fuel l b call := by
  cases call with
  | next => exact h.step hfuel .forward
  | previous => exact h.step hfuel .backward
  | hasNext => exact h.hasMore hfuel .forward
  | hasPrevious => exact h.hasMore hfuel .backward
  | add x => exact h.add hroom x
  | set x => exact h.set x
  | remove => exact h.remove

theorem tracks_ofList (verdict : α → Except Failure Bool) {xs : List α} {start : Place}
    {n : Nat} (hstart : start.StandsAt n bound) (hn : n ≤ xs.length) (hxs : xs.length ≤ bound) :
    Tracks verdict bound (.ofList xs n) {}
      { items := xs, cursor := { position := start }, top := {} } where
  shows := ⟨(Zipper.items_ofList xs n).symm, Cursor.spans_ofList hstart hn hxs⟩
  sound := sound_of_free (fun d => by cases d <;> rfl)
  moved_iff := ⟨fun _ => rfl, fun _ => rfl⟩
  follows _ := Ledger.follows_of_untouched (Zipper.touched_of_uncrossed rfl) rfl

/-- Along every run of a two-way filter on a cursor in a list, an edit that is not refused falls
on the element returned last exactly if the cursor has not strayed from it. -/
theorem edits_trusted (verdict : α → Except Failure Bool) (xs : List α) {start : Place}
    {n fuel : Nat} (calls : List (Call α)) (hn : n ≤ xs.length)
    (hstart : start.StandsAt n (xs.length + calls.length))
    (hfuel : xs.length + calls.length < fuel) :
    Along (Call.ask (onBench fuel verdict)) id Treats calls {}
      { items := xs, cursor := { position := start }, top := {} } := by
  have hstart' := tracks_ofList verdict hstart hn (Nat.le_add_right _ _)
  -- Each call inserts at most one element, so that room and fuel last for all of them.
  refine along_of_invariant
    (fun k l b => ∃ z, Tracks verdict (xs.length + calls.length) z l b
      ∧ b.items.length + k ≤ xs.length + calls.length)
    ?_ calls ⟨_, hstart', Nat.le_refl _⟩
  rintro k l b call ⟨z, hz, hroom⟩
  have hlt : b.items.length < fuel := by omega
  obtain ⟨r, b', hask, htreats, hlen, z', hz'⟩ := hz.kept (by omega) hlt call
  exact ⟨r, b', hask, htreats, z', hz', by omega⟩

/-- Runs that end with an edit of an element that was rejected: one after `2` was returned, one
before anything was. -/
theorem edits_trusted_even :
    Along (Call.ask (onBench 6 even)) id Treats [.next, .hasNext, .remove] {}
        { items := [2, 1], cursor := { position := .plain 0 }, top := {} }
      ∧ Along (Call.ask (onBench 6 even)) id Treats [.hasNext, .set 9] {}
        { items := [1], cursor := { position := .plain 0 }, top := {} } :=
  ⟨edits_trusted even [2, 1] [.next, .hasNext, .remove] (Nat.zero_le _)
      (Place.standsAt_plain (Nat.zero_le _)) (by decide),
    edits_trusted even [1] [.hasNext, .set 9] (Nat.zero_le _)
      (Place.standsAt_plain (Nat.zero_le _)) (by decide)⟩

/-- An edit that is always meant for the element returned last. -/
def Meant (l : Ledger) (call : Call α) (b : Bench α (ListFilter α))
    (r : Except Failure (Answer α)) (b' : Bench α (ListFilter α)) : Prop :=
  ∀ change, call.change = some change → Faithful l change b r b'

/-- Not every edit falls on the element returned last: after a search in vain, `1` is replaced
though nothing was returned, and `1` is removed though `2` was returned. -/
theorem edits_not_always_meant :
    (¬ Along (Call.ask (onBench 6 even)) id Meant [.hasNext, .set 9] {}
        { items := [1], cursor := { position := .plain 0 }, top := {} })
      ∧ ¬ Along (Call.ask (onBench 6 even)) id Meant [.next, .hasNext, .remove] {}
        { items := [2, 1], cursor := { position := .plain 0 }, top := {} } := by
  constructor
  · rintro ⟨r₁, b₁, h₁, -, r₂, b₂, h₂, hmeant, -⟩
    have hnext : Call.hasNext.ask (onBench 6 even) ⟨[1], {}, {}⟩
        = .of (.ok (.truth false)) ⟨[1], ⟨.plain 1, some (.plain 0)⟩, {}⟩ := rfl
    obtain ⟨rfl, rfl⟩ := Outcome.of_inj (hnext.symm.trans h₁)
    have hset : (Call.set 9).ask (onBench 6 even) ⟨[1], ⟨.plain 1, some (.plain 0)⟩, {}⟩
        = .of (.ok .done) ⟨[9], ⟨.plain 1, some (.plain 0)⟩, {}⟩ := rfl
    obtain ⟨rfl, rfl⟩ := Outcome.of_inj (hset.symm.trans h₂)
    obtain ⟨i, hreturned, -⟩ := hmeant _ rfl
    have hreturned' : none = some i := hreturned
    exact absurd hreturned' (by simp)
  · rintro ⟨r₁, b₁, h₁, -, r₂, b₂, h₂, -, r₃, b₃, h₃, hmeant, -⟩
    have hnext : Call.next.ask (onBench 6 even) ⟨[2, 1], {}, {}⟩
        = .of (.ok (.element 2)) ⟨[2, 1], ⟨.plain 1, some (.plain 0)⟩,
            { index := 1, moved := some .forward }⟩ := rfl
    obtain ⟨rfl, rfl⟩ := Outcome.of_inj (hnext.symm.trans h₁)
    have hmore : Call.hasNext.ask (onBench 6 even) ⟨[2, 1], ⟨.plain 1, some (.plain 0)⟩,
            { index := 1, moved := some .forward }⟩
        = .of (.ok (.truth false)) ⟨[2, 1], ⟨.plain 2, some (.plain 1)⟩,
            { index := 1, moved := some .forward }⟩ := rfl
    obtain ⟨rfl, rfl⟩ := Outcome.of_inj (hmore.symm.trans h₂)
    have hremove : Call.remove.ask (onBench 6 even) ⟨[2, 1], ⟨.plain 2, some (.plain 1)⟩,
            { index := 1, moved := some .forward }⟩
        = .of (.ok .done) ⟨[2], ⟨.plain 1, none⟩, {}⟩ := rfl
    obtain ⟨rfl, rfl⟩ := Outcome.of_inj (hremove.symm.trans h₃)
    obtain ⟨i, hreturned, htouched, -⟩ := hmeant _ rfl
    have hreturned' : some 0 = some i := hreturned
    have htouched' : some 1 = some i := htouched
    exact absurd (hreturned'.trans htouched'.symm) (by decide)

end ListFilter

end Cursors
