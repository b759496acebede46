/-
  Cursors.Proofs.Leaf
  ───────────────────
  **SOURCES OVER ONE LIST.**

  Three sources read a plain list, each with a state of its own:

      look-ahead   takes steps, and holds at most one element early
      window       reads from its index up to its stop
      cursor       reads from its gap to the end

  Each gives what is left of the list from where it is.
-/
import Cursors.Primitive.Window
import Cursors.Proofs.Cursor
import Cursors.Proofs.Feed
import Cursors.Proofs.Supply

namespace Cursors

variable {σ α : Type}

/-! ## §1. Look-ahead. -/

namespace Peek

/-- A look-ahead over the steps of a list, of which `taken` were taken, has `rest` still to
give. -/
structure Awaits (p : Peek α) (xs : List α) (taken : Nat) (rest : List α) : Prop where
  rest_eq : p.ahead.toList ++ xs.drop taken = rest
  of_ended : p.ended = true → rest = []

theorem awaits_fresh (xs : List α) : Awaits {} xs 0 xs := ⟨rfl, by simp⟩

variable {p : Peek α} {xs rest : List α} {n : Nat} {x : α}

/-- The element held is the next one. -/
theorem Awaits.rest_of_held (h : p.Awaits xs n rest) (hx : p.ahead = some x) :
    rest = x :: xs.drop n := by
  rw [← h.rest_eq, hx]
  rfl

theorem Awaits.rest_of_free (h : p.Awaits xs n rest) (hp : p.ahead = none) :
    rest = xs.drop n := by
  rw [← h.rest_eq, hp]
  rfl

/-- Where something is left, the source has not ended. -/
theorem Awaits.not_ended (h : p.Awaits xs n (x :: rest)) : p.ended = false := by
  cases hended : p.ended with
  | false => rfl
  | true => exact absurd (h.of_ended hended) (List.cons_ne_nil x rest)

theorem Awaits.taken (h : p.Awaits xs n (x :: rest)) (hx : p.ahead = some x) :
    Awaits { p with ahead := none } xs n rest where
  rest_eq := (List.cons.inj (h.rest_of_held hx)).2.symm
  of_ended hended := by
    rw [h.not_ended] at hended
    exact absurd hended Bool.false_ne_true

end Peek

namespace Pair

variable {pair : Pair σ (Peek α) Nat} {pull : Act σ α} {xs rest : List α} {s : σ} {p : Peek α}
  {n : Nat}

/-- What is pulled are the steps of a list, counted by the pair. -/
def Feeds (pair : Pair σ (Peek α) Nat) (xs : List α) (pull : Act σ α) : Prop :=
  ∀ {s : σ} {p : Peek α} {n : Nat}, pair.Holds s p n →
    pull s = .of (Feed.ofList xs n) (pair.second.set (n + 1) s)

theorem feeds_pull (pair : Pair σ (Peek α) Nat) (xs : List α) :
    pair.Feeds xs (Feed.pull (Feed.ofList xs) pair.second) := by
  intro s p n h
  rw [Feed.pull_apply, pair.second_get h]

/-- To be asked whether there is more costs at most one step, and then the next element is held. -/
theorem peek_apply (hfeeds : pair.Feeds xs pull) (h : pair.Holds s p n)
    (hp : p.Awaits xs n rest) :
    ∃ s' p' n', Peek.hasNext pair.first pull s = .value (!rest.isEmpty) s'
      ∧ pair.Holds s' p' n' ∧ p'.Awaits xs n' rest ∧ p'.ahead = rest.head? := by
  have hfirst := pair.first_get h
  -- Only where nothing is held and the end was not met yet is a step taken.
  cases hahead : p.ahead with
  | some x =>
      rw [hp.rest_of_held hahead]
      refine ⟨s, p, n, Peek.hasNext_of_held (hfirst ▸ hahead), h, ?_, hahead⟩
      rw [← hp.rest_of_held hahead]
      exact hp
  | none =>
      have hrest := hp.rest_of_free hahead
      have hpull := hfeeds h
      have h₁ := pair.second_set h (n + 1)
      cases hended : p.ended with
      | true =>
          have hnil := hp.of_ended hended
          subst hnil
          exact ⟨s, p, n, Peek.hasNext_of_ended (hfirst ▸ hahead) (hfirst ▸ hended), h, hp, hahead⟩
      | false =>
          cases hx : xs[n]? with
          | some x =>
              have hcons : xs.drop n = x :: xs.drop (n + 1) := by
                obtain ⟨hlt, rfl⟩ := List.getElem?_eq_some_iff.mp hx
                exact List.drop_eq_getElem_cons hlt
              rw [Feed.ofList, hx] at hpull
              refine ⟨_, { p with ahead := some x }, n + 1, ?_, pair.first_set h₁ _, ?_, ?_⟩
              · rw [Peek.hasNext_of_value (hfirst ▸ hahead) (hfirst ▸ hended) hpull,
                  pair.first_get h₁, hrest, hcons]
                rfl
              · exact ⟨by rw [hrest, hcons]; rfl, fun he => absurd (hended.symm.trans he) (by simp)⟩
              · rw [hrest, hcons]
                rfl
          | none =>
              have hnil : xs.drop n = [] := by
                rw [List.drop_eq_nil_iff]
                exact List.getElem?_eq_none_iff.mp hx
              have hnil' : xs.drop (n + 1) = [] := by
                rw [← List.tail_drop, hnil]
                rfl
              rw [Feed.ofList, hx] at hpull
              refine ⟨_, { p with ended := true }, n + 1, ?_, pair.first_set h₁ _, ?_, ?_⟩
              · rw [Peek.hasNext_of_end (hfirst ▸ hahead) (hfirst ▸ hended) hpull rfl,
                  pair.first_get h₁, hrest, hnil]
                rfl
              · exact ⟨by rw [hrest, hnil, hahead, hnil']; rfl, fun _ => by rw [hrest, hnil]⟩
              · rw [hrest, hnil, hahead]
                rfl

/-- A look-ahead over the steps of a list gives this list. -/
theorem gives_peek (hfeeds : pair.Feeds xs pull) (owner : String) :
    Gives (Peek.forward owner pair.first pull) (pair.Has fun p n rest => p.Awaits xs n rest) where
  hasNext_apply := by
    rintro s rest ⟨p, n, h, hp⟩
    obtain ⟨s', p', n', hask, h', hp', -⟩ := peek_apply hfeeds h hp
    exact ⟨s', hask, p', n', h', hp'⟩
  next_of_cons := by
    rintro s x rest ⟨p, n, h, hp⟩
    obtain ⟨s', p', n', hask, h', hp', hahead⟩ := peek_apply hfeeds h hp
    refine ⟨_, ?_, _, n', pair.first_set h' { p' with ahead := none }, hp'.taken hahead⟩
    show Peek.next pair.first pull s = _
    simp only [Peek.next, Act.bind_apply, hask, List.isEmpty_cons, Bool.not_false, if_true,
      Field.read_apply, pair.first_get h', hahead, List.head?_cons, Field.modify_apply]
    rfl
  next_of_nil := by
    rintro s ⟨p, n, h, hp⟩
    obtain ⟨s', p', n', hask, h', hp', -⟩ := peek_apply hfeeds h hp
    exact ⟨s', Peek.next_of_exhausted hask, p', n', h', hp'⟩

end Pair

/-! ## §2. Windows. -/

namespace Window

/-- A window on a list has `rest` still to give, from its index `i` up to its stop. -/
structure Covers (w : Window) (xs rest : List α) (i stop bound : Nat) : Prop where
  index : w.index.StandsAt i bound
  stop_eq : w.stop.toInt = stop
  le_stop : i ≤ stop
  stop_le : stop ≤ xs.length
  le_bound : stop ≤ bound
  rest_eq : (xs.take stop).drop i = rest

/-- What is left of a window on a list. -/
def Rest (w : Window) (xs rest : List α) : Prop := ∃ i stop bound, w.Covers xs rest i stop bound

variable {w : Window} {xs rest : List α} {i stop bound : Nat} {x : α}

theorem Covers.length_rest (h : w.Covers xs rest i stop bound) : rest.length = stop - i := by
  have := h.stop_le
  rw [← h.rest_eq, List.length_drop, List.length_take]
  omega

/-- The window moves on by one. -/
theorem Covers.tail (h : w.Covers xs (x :: rest) i stop bound) :
    xs[i]? = some x
      ∧ Covers { w with index := w.index.following } xs rest (i + 1) stop bound := by
  have hlt : i < stop := by
    have hlen := h.length_rest
    rw [List.length_cons] at hlen
    omega
  have hle := h.le_bound
  constructor
  · have hhead : ((xs.take stop).drop i).head? = some x := by
      rw [h.rest_eq]
      rfl
    rwa [List.head?_drop, List.getElem?_take_of_lt hlt] at hhead
  · refine ⟨h.index.following (by omega), h.stop_eq, hlt, h.stop_le, h.le_bound, ?_⟩
    rw [← List.tail_drop, h.rest_eq]
    rfl

/-- The bounds that are accepted are those of a slice. -/
theorem checkBounds_eq_ok_iff {size : Nat} {start stop : Int} :
    checkBounds size start stop = .ok () ↔ 0 ≤ start ∧ start ≤ stop ∧ stop ≤ size := by
  unfold checkBounds
  split
  · simp only [reduceCtorEq, false_iff]
    omega
  · split
    · simp only [reduceCtorEq, false_iff]
      omega
    · split
      · simp only [reduceCtorEq, false_iff]
        omega
      · simp only [true_iff]
        omega

/-- A new window covers the elements from its start up to its stop. -/
theorem rest_fresh {start : Nat} (h : checkBounds xs.length start stop = .ok ()) :
    (fresh (.plain start) (.plain stop)).Rest xs ((xs.take stop).drop start) := by
  obtain ⟨-, hle, hstop⟩ := checkBounds_eq_ok_iff.mp h
  exact ⟨start, stop, stop, Place.standsAt_plain (by omega), rfl, by omega, by omega,
    Nat.le_refl _, rfl⟩

end Window

namespace Pair

section

variable {pair : Pair σ Window (List α)} {s : σ} {w : Window} {xs rest : List α}
  {i stop bound : Nat}

theorem window_hasNext_apply (h : pair.Holds s w xs) (hw : w.Covers xs rest i stop bound) :
    Window.hasNext pair.first s = .value (!rest.isEmpty) s := by
  have hlen := hw.length_rest
  have hdecide : decide (w.index.toInt < w.stop.toInt) = !rest.isEmpty := by
    rw [hw.index.toInt_eq, hw.stop_eq]
    cases rest with
    | nil =>
        rw [List.length_nil] at hlen
        simp only [List.isEmpty_nil, Bool.not_true, decide_eq_false_iff_not]
        omega
    | cons x rest =>
        rw [List.length_cons] at hlen
        simp only [List.isEmpty_cons, Bool.not_false, decide_eq_true_eq]
        omega
  simp only [Window.hasNext, Act.bind_apply, Field.read_apply, pair.first_get h, hdecide]
  rfl

/-- A window gives the elements between its index and its stop. -/
theorem gives_window (pair : Pair σ Window (List α)) (owner : String) :
    Gives (Window.forward owner pair.first (.ofList pair.second)) (pair.Has Window.Rest) where
  hasNext_apply := by
    rintro s rest ⟨w, xs, h, i, stop, bound, hw⟩
    exact ⟨s, window_hasNext_apply h hw, w, xs, h, i, stop, bound, hw⟩
  next_of_cons := by
    rintro s x rest ⟨w, xs, h, i, stop, bound, hw⟩
    obtain ⟨hx, hw'⟩ := hw.tail
    have hle := hw'.le_stop
    have hmore : ¬ w.index.toInt ≥ w.stop.toInt := by
      rw [hw.index.toInt_eq, hw.stop_eq]
      omega
    have hget : (Sequence.ofList pair.second).get w.index s = .value x s :=
      Cursor.get_ofList_apply hw.index (by rw [pair.second_get h, hx])
    refine ⟨_, ?_, _, xs, pair.first_set h _, i + 1, stop, bound, hw'⟩
    show Window.next pair.first (.ofList pair.second) s = _
    simp only [Window.next, Act.bind_apply, Field.read_apply, pair.first_get h, if_neg hmore, hget,
      Field.modify_apply]
    rfl
  next_of_nil := by
    rintro s ⟨w, xs, h, i, stop, bound, hw⟩
    have hlen := hw.length_rest
    rw [List.length_nil] at hlen
    have hend : w.index.toInt ≥ w.stop.toInt := by
      rw [hw.index.toInt_eq, hw.stop_eq]
      omega
    refine ⟨s, ?_, w, xs, h, i, stop, bound, hw⟩
    show Window.next pair.first (.ofList pair.second) s = _
    simp only [Window.next, Act.bind_apply, Field.read_apply, pair.first_get h, if_pos hend,
      Act.fail_apply]

end

end Pair

/-! ## §3. Cursors. -/

/-- What is left in front of a cursor in a list. -/
def Cursor.Rest (c : Cursor) (xs rest : List α) : Prop :=
  ∃ bound, ∃ z : Zipper α, z.items = xs ∧ c.Spans bound z ∧ z.front = rest

/-- A new cursor has the elements from its position on in front of it. -/
theorem Cursor.rest_ofList {n : Nat} {xs : List α} (h : n ≤ xs.length) :
    Cursor.Rest { position := .plain n } xs (xs.drop n) :=
  ⟨xs.length, .ofList xs n, Zipper.items_ofList xs n,
    spans_ofList (Place.standsAt_plain h) h (Nat.le_refl _), rfl⟩

namespace Pair

/-- A cursor gives the elements in front of it. -/
theorem gives_cursor (pair : Pair σ Cursor (List α)) :
    Gives (Cursor.twoWay pair.first (.ofList pair.second)).toForward (pair.Has Cursor.Rest) where
  hasNext_apply := by
    rintro s rest ⟨c, xs, h, bound, z, rfl, hz, rfl⟩
    have hz' : (pair.first.get s).Spans bound z := by rwa [pair.first_get h]
    exact ⟨s, Cursor.hasMore_apply (pair.second_get h) hz' .forward, c, _, h, bound, z, rfl, hz,
      rfl⟩
  next_of_cons := by
    rintro s x rest ⟨c, xs, h, bound, z, rfl, hz, hx⟩
    have hz' : (pair.first.get s).Spans bound z := by rwa [pair.first_get h]
    obtain ⟨c', hnext, hc'⟩ := Cursor.next_of_front (pair.second_get h) hz' hx
    exact ⟨_, hnext, c', _, pair.first_set h c', bound, _, z.items_cross .forward 1, hc',
      by simp [Zipper.cross, hx]⟩
  next_of_nil := by
    rintro s ⟨c, xs, h, bound, z, rfl, hz, hnil⟩
    have hz' : (pair.first.get s).Spans bound z := by rwa [pair.first_get h]
    exact ⟨s, Cursor.step_of_toward_nil (pair.second_get h) hz' (d := .forward) hnil, c, _, h,
      bound, z, rfl, hz, hnil⟩

end Pair

end Cursors
