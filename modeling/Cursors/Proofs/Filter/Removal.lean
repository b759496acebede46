/-
  Cursors.Proofs.Filter.Removal
  ─────────────────────────────
  **WHICH ELEMENT A FILTER REMOVES.**

  The filter looks for the next match with the cursor itself, and refuses
  a removal only while it holds the match.  A search in vain holds nothing
  and leaves the cursor behind a rejected element: it has strayed.

  Main result (`removals_trusted`): along every run of calls, a removal
  that is not refused removes the element returned last, a match, exactly
  if the cursor has not strayed; otherwise it removes a rejected element.
-/
import Cursors.Proofs.Ledger

namespace Cursors

namespace Filter

variable {α : Type} {verdict : α → Except Failure Bool} {bound fuel : Nat} {l : Ledger}
  {z : Zipper α} {b b' : Bench α (Filter α)}

/-! ## §1. The operations. -/

/-- A filter at work on a bench. -/
def onBench (fuel : Nat) (verdict : α → Except Failure Bool) : Forward (Bench α (Filter α)) α :=
  forward fuel Bench.self Bench.source.toForward (judge verdict)

theorem hasNext_of_held (h : b.top.ahead.isSome) :
    (onBench fuel verdict).hasNext b = .value true b := by
  simp only [onBench, forward, hasNext, Act.bind_apply, Field.read_apply, Bench.self_get, h,
    if_true]
  rfl

theorem next_of_held {x : α} (h : b.top.ahead = some x) :
    (onBench fuel verdict).next b = .value x { b with top := {} } := by
  simp only [onBench, forward, next, Act.bind_apply, Field.read_apply, Bench.self_get, h]
  rfl

/-- A filter that holds no match has no state. -/
theorem top_of_free (h : b.top.ahead = none) : b.top = {} := by
  obtain ⟨items, cursor, ⟨ahead⟩⟩ := b
  obtain rfl : ahead = none := h
  rfl

/-- The search of the filter goes forward from the cursor. -/
theorem search_forward (verdict : α → Except Failure Bool) (h : b.Shows bound z)
    (hfuel : z.items.length < fuel) :
    ∃ b₁, search Bench.source.hasNext Bench.source.next (judge verdict) fuel b
        = .of (look verdict z.front) b₁
      ∧ b₁.Shows bound (z.cross .forward (passed verdict z.front)) ∧ b₁.top = b.top := by
  apply Bench.search_apply verdict h .forward
  rw [z.length_items] at hfuel
  simp only [Zipper.toward]
  omega

theorem hasNext_of_free (verdict : α → Except Failure Bool) (h : b.Shows bound z)
    (hfuel : z.items.length < fuel) (hfree : b.top.ahead = none) :
    ∃ b', (onBench fuel verdict).hasNext b
        = .of ((look verdict z.front).map Option.isSome) b'
      ∧ b'.Shows bound (z.cross .forward (passed verdict z.front))
      ∧ b'.top = { ahead := sighted (look verdict z.front) } := by
  obtain ⟨b₁, hsearch, h₁, htop₁⟩ := search_forward verdict h hfuel
  rw [top_of_free hfree] at htop₁
  simp only [onBench, forward, hasNext, Act.bind_apply, Field.read_apply, Bench.self_get, hfree,
    Option.isSome_none, Bool.false_eq_true, if_false, hsearch]
  rcases look verdict z.front with e | (_ | x)
  · exact ⟨b₁, rfl, h₁, htop₁⟩
  · exact ⟨b₁, rfl, h₁, htop₁⟩
  · exact ⟨_, rfl, h₁.withTop _, rfl⟩

theorem next_of_free (verdict : α → Except Failure Bool) (h : b.Shows bound z)
    (hfuel : z.items.length < fuel) (hfree : b.top.ahead = none) :
    ∃ b', (onBench fuel verdict).next b = .of (taken (look verdict z.front)) b'
      ∧ b'.Shows bound (z.cross .forward (passed verdict z.front)) ∧ b'.top = {} := by
  obtain ⟨b₁, hsearch, h₁, htop₁⟩ := search_forward verdict h hfuel
  rw [top_of_free hfree] at htop₁
  simp only [onBench, forward, next, Act.bind_apply, Field.read_apply, Bench.self_get, hfree,
    hsearch]
  rcases look verdict z.front with e | (_ | x)
  · exact ⟨b₁, rfl, h₁, htop₁⟩
  · exact ⟨b₁, rfl, h₁, htop₁⟩
  · exact ⟨_, rfl, h₁.withTop _, rfl⟩

theorem remove_of_held (h : b.top.ahead.isSome) :
    (onBench fuel verdict).remove b = .failure (.heldAhead .remove false) b := by
  simp only [onBench, forward, remove, Act.bind_apply, Field.read_apply, Bench.self_get, h,
    if_true, Act.fail_apply]

theorem remove_of_free (h : b.top.ahead = none) :
    (onBench fuel verdict).remove b = Bench.source.remove b := by
  simp only [onBench, forward, remove, Act.bind_apply, Field.read_apply, Bench.self_get, h,
    Option.isSome_none, Bool.false_eq_true, if_false]

/-! ## §2. What one call does. -/

/-- A call in a run: a move that succeeds enters the match that it returns into the ledger, and a
removal goes where the ledger says, unless the cursor has strayed to a rejected element. -/
structure Treats (verdict : α → Except Failure Bool) (l : Ledger) (call : Pull)
    (b : Bench α (Filter α)) (r : Except Failure (Answer α)) (b' : Bench α (Filter α)) :
    Prop where
  returns : ∀ x, r = .ok (.element x) → matching verdict x = true ∧ b'.items = b.items
    ∧ ∃ i, (l.record call.call r b b').returned = some i ∧ b'.items[i]? = some x
  removes : call = .remove → Trusted b.top.ahead.isSome l List.eraseIdx b r b'
  removed : call = .remove → r = .ok .done → ∀ i x, b.cursor.touched = some i →
    b.items[i]? = some x → matching verdict x = !l.strayed

/-- The ledger, the filter and its cursor belong together. -/
structure Tracks (verdict : α → Except Failure Bool) (bound : Nat) (z : Zipper α) (l : Ledger)
    (b : Bench α (Filter α)) : Prop where
  shows : b.Shows bound z
  held : ∀ x, b.top.ahead = some x →
    verdict x = .ok true ∧ z.crossed = some .forward ∧ ∃ rest, z.back = x :: rest
  behind : ∀ i, l.returned = some i → i < z.back.length
  follows : b.top.ahead = none → l.Follows z
  /-- The cursor strays to rejected elements only. -/
  matching_eq : b.top.ahead = none → ∀ i x, z.touched = some i → z.items[i]? = some x →
    matching verdict x = !l.strayed

/-- A call comes to an answer and keeps the ledger and the filter together. -/
def Kept (verdict : α → Except Failure Bool) (bound fuel : Nat) (l : Ledger)
    (b : Bench α (Filter α)) (call : Pull) : Prop :=
  ∃ r b', call.ask (onBench fuel verdict) b = .of r b' ∧ Treats verdict l call b r b'
    ∧ b'.items.length ≤ b.items.length
    ∧ ∃ z', Tracks verdict bound z' (l.record call.call r b b') b'

/-- A call that is not a removal and returns nothing is treated well. -/
theorem treats_of_neither {call : Pull} {r : Except Failure (Answer α)} (hcall : call ≠ .remove)
    (hr : ∀ x, r ≠ .ok (.element x)) : Treats verdict l call b r b' where
  returns x hx := absurd hx (hr x)
  removes h := absurd h hcall
  removed h := absurd h hcall

theorem treats_of_returned {x : α} {i : Nat} (hx : verdict x = .ok true)
    (hitems : b'.items = b.items) (hi : b'.cursor.touched = some i)
    (hxi : b'.items[i]? = some x) : Treats verdict l .next b (.ok (.element x)) b' where
  returns y hy := by
    obtain rfl : x = y := by simpa using hy
    exact ⟨matching_of_match hx, hitems, i, hi, hxi⟩
  removes h := absurd h (by decide)
  removed h := absurd h (by decide)

/-- A search that came to no match leaves the ledger right. -/
theorem Tracks.skipped (h : Tracks verdict bound z l b) (hfree : b.top.ahead = none) {n : Nat}
    (hn : n ≤ z.front.length) (hskip : ∀ y ∈ z.front.take n, matching verdict y = false)
    (hb' : b'.Shows bound (z.cross .forward n)) (hfree' : b'.top.ahead = none) :
    Tracks verdict bound (z.cross .forward n) (l.skip b b') b' := by
  have hfollows : (l.skip b b').Follows (z.cross .forward n) :=
    Ledger.follows_skip h.shows .forward hb' hn fun _ => h.follows hfree
  refine ⟨hb', by simp [hfree'], fun i hi => ?_, fun _ => hfollows, fun _ i x hi hx => ?_⟩
  · rw [l.returned_skip] at hi
    have hlt := h.behind i hi
    simp only [Zipper.cross, List.length_append]
    omega
  · cases n with
    | zero =>
        rw [z.cross_zero] at hi hx hb'
        rw [Ledger.skip, if_pos (by rw [h.shows.spans.position.toInt_eq,
          hb'.spans.position.toInt_eq])]
        exact h.matching_eq hfree i x hi hx
    | succ n =>
        -- The element crossed last is a rejected one in front of the one returned last.
        rw [z.items_cross] at hx
        obtain ⟨k, y, hk, hyk, hy, hle⟩ := Zipper.touched_cross_forward hn
        obtain rfl : i = k := by rw [hi, Option.some.injEq] at hk; exact hk
        obtain rfl : x = y := by rw [hx, Option.some.injEq] at hyk; exact hyk
        have hrejected : matching verdict x = false := hskip x hy
        cases hs : (l.skip b b').strayed with
        | true => exact hrejected
        | false =>
            have hreturned := hfollows.steady hs i hi
            rw [l.returned_skip] at hreturned
            have hlt := h.behind i hreturned
            omega

theorem Tracks.hasNext (h : Tracks verdict bound z l b) (hfuel : b.items.length < fuel) :
    Kept verdict bound fuel l b .hasNext := by
  have hneither : ∀ {r : Except Failure Bool} {b'}, Treats verdict l .hasNext b
      (r.map .truth) b' := by
    intro r b'
    apply treats_of_neither (by decide)
    cases r <;> simp [Except.map]
  rw [h.shows.items_eq] at hfuel
  by_cases hahead : b.top.ahead.isSome
  · exact ⟨_, b, Pull.ask_hasNext_of (r := .ok true) (hasNext_of_held hahead), hneither,
      Nat.le_refl _, z, h⟩
  · rw [Option.not_isSome_iff_eq_none] at hahead
    obtain ⟨b', hask, hb', htop⟩ := hasNext_of_free verdict h.shows hfuel hahead
    have hitems : b'.items.length ≤ b.items.length := by
      apply Nat.le_of_eq
      rw [hb'.items_eq, h.shows.items_eq, z.items_cross]
    have hle := passed_le_length verdict z.front
    refine ⟨_, b', Pull.ask_hasNext_of hask, hneither, hitems,
      z.cross .forward (passed verdict z.front), ?_⟩
    obtain ⟨pre, x, post, hys, -, hx, hlook, hpassed⟩ | ⟨hall, hlook, -⟩ |
      ⟨pre, x, post, e, hys, hpre, hx, hlook, hpassed⟩ := look_cases verdict z.front
    · -- The match is held now, and no removal gets through before it is returned.
      rw [hlook, sighted] at htop
      rw [hlook]
      show Tracks verdict bound _ l b'
      refine ⟨hb', fun y hy => ?_, fun i hi => ?_, by simp [htop], by simp [htop]⟩
      · obtain rfl : x = y := by simpa [htop] using hy
        rw [hpassed]
        exact ⟨hx, z.crossed_cross .forward (Nat.succ_pos _), _,
          Zipper.toward_opposite_cross_append (d := .forward) hys⟩
      · have hlt := h.behind i hi
        simp only [Zipper.cross, List.length_append]
        omega
    · rw [hlook] at htop ⊢
      exact h.skipped hahead hle (skipped_of_rejected hall _) hb' (by rw [htop]; rfl)
    · rw [hlook] at htop ⊢
      refine h.skipped hahead hle ?_ hb' (by rw [htop]; rfl)
      rw [hpassed]
      exact skipped_of_error hys hpre hx

/-- Right after a match was returned. -/
theorem tracks_of_returned {x : α} {rest : List α} (hb' : b'.Shows bound z)
    (hcrossed : z.crossed = some .forward) (hback : z.back = x :: rest)
    (hx : verdict x = .ok true) (htop : b'.top = {}) :
    Tracks verdict bound z { returned := b'.cursor.touched } b'
      ∧ ∃ i, b'.cursor.touched = some i ∧ b'.items[i]? = some x := by
  obtain ⟨i, hi, hxi⟩ := Zipper.touched_of_toward (d := .forward) hcrossed hback
  have htouched : b'.cursor.touched = some i := hb'.spans.touched_eq.trans hi
  rw [htouched]
  refine ⟨⟨hb', by simp [htop], fun k hk => ?_, fun _ => Ledger.follows_of_touched hi,
    fun _ k y hk hy => ?_⟩, i, rfl, by rw [hb'.items_eq, hxi]⟩
  · have hlt : i < z.back.length := by
      rw [Zipper.touched, hcrossed, hback] at hi
      have hlen : rest.length = i := Option.some.inj hi
      rw [hback, List.length_cons]
      omega
    have hki : i = k := Option.some.inj hk
    omega
  · obtain rfl : i = k := by rw [hi, Option.some.injEq] at hk; exact hk
    obtain rfl : x = y := by rw [hxi, Option.some.injEq] at hy; exact hy
    exact matching_of_match hx

theorem Tracks.next (h : Tracks verdict bound z l b) (hfuel : b.items.length < fuel) :
    Kept verdict bound fuel l b .next := by
  rw [h.shows.items_eq] at hfuel
  cases hahead : b.top.ahead with
  | some x =>
      obtain ⟨hx, hcrossed, rest, hback⟩ := h.held x hahead
      obtain ⟨htracks, i, hi, hxi⟩ :=
        tracks_of_returned (h.shows.withTop {}) hcrossed hback hx rfl
      exact ⟨_, _, Pull.ask_next_of (r := .ok x) (next_of_held hahead),
        treats_of_returned hx rfl hi hxi, Nat.le_refl _, z, htracks⟩
  | none =>
      obtain ⟨b', hask, hb', htop⟩ := next_of_free verdict h.shows hfuel hahead
      have hitems : b'.items = b.items := by
        rw [hb'.items_eq, h.shows.items_eq, z.items_cross]
      have hlen : b'.items.length ≤ b.items.length := Nat.le_of_eq (congrArg _ hitems)
      have hle := passed_le_length verdict z.front
      refine ⟨_, b', Pull.ask_next_of hask, ?_⟩
      obtain ⟨pre, x, post, hys, -, hx, hlook, hpassed⟩ | ⟨hall, hlook, -⟩ |
        ⟨pre, x, post, e, hys, hpre, hx, hlook, hpassed⟩ := look_cases verdict z.front
      · rw [hlook]
        rw [hpassed] at hb'
        obtain ⟨htracks, i, hi, hxi⟩ := tracks_of_returned hb'
          (z.crossed_cross .forward (Nat.succ_pos _))
          (Zipper.toward_opposite_cross_append (d := .forward) hys) hx htop
        exact ⟨treats_of_returned hx hitems hi hxi, hlen, _, htracks⟩
      · rw [hlook]
        exact ⟨treats_of_neither (by decide) (by simp [taken, Except.map]), hlen, _,
          h.skipped hahead hle (skipped_of_rejected hall _) hb' (by rw [htop])⟩
      · rw [hlook]
        have hskip := skipped_of_error hys hpre hx
        rw [← hpassed] at hskip
        exact ⟨treats_of_neither (by decide) (by simp [taken, Except.map]), hlen, _,
          h.skipped hahead hle hskip hb' (by rw [htop])⟩

/-- A removal that is refused leaves everything as it is. -/
theorem Tracks.refused (h : Tracks verdict bound z l b) {e : Failure}
    (hask : Pull.remove.ask (onBench fuel verdict) b = .of (.error e) b)
    (hkind : e.kind = "IllegalStateError") (hrefused : b.top.ahead.isSome ∨ l.strayed = false) :
    Kept verdict bound fuel l b .remove := by
  refine ⟨_, b, hask, ?_, Nat.le_refl _, z, h⟩
  constructor
  · intro x hx
    exact absurd hx (by simp)
  · intro _
    exact trusted_of_refused hkind hrefused
  · intro _ hdone
    exact absurd hdone (by simp)

/-- A removal that is passed on removes the element that the cursor crossed last. -/
theorem Tracks.removed (h : Tracks verdict bound z l b) (hfree : b.top.ahead = none) {i : Nat}
    (hz : z.touched = some i) : Kept verdict bound fuel l b .remove := by
  obtain ⟨b', hremove, hb', htop⟩ := Bench.remove_of_touched h.shows hz
  have hask : (onBench fuel verdict).remove b = .of (.ok ()) b' :=
    (remove_of_free hfree).trans hremove
  have htouched : b.cursor.touched = some i := h.shows.spans.touched_eq.trans hz
  have hitems : b'.items = b.items.eraseIdx i := by
    rw [hb'.items_eq, h.shows.items_eq, z.items_removed hz]
  have huntouched : z.removed.touched = none := Zipper.touched_of_uncrossed z.crossed_removed
  have htreats : Treats verdict l .remove b (.ok .done) b' := by
    constructor
    · intro x hx
      exact absurd hx (by simp)
    · intro _
      exact trusted_of_touched (by simp [hfree]) (h.follows hfree) hz htouched hitems
    · intro _ _ k x hk hx
      rw [h.shows.spans.touched_eq] at hk
      rw [h.shows.items_eq] at hx
      exact h.matching_eq hfree k x hk hx
  have hlen : b'.items.length ≤ b.items.length := by
    rw [hitems, List.length_eraseIdx]
    split <;> omega
  refine ⟨_, b', Pull.ask_remove_of hask, htreats, hlen, z.removed, ?_⟩
  show Tracks verdict bound z.removed {} b'
  constructor
  · exact hb'
  · intro x hx
    rw [htop, hfree] at hx
    exact absurd hx (by simp)
  · intro k hk
    exact absurd hk (by simp)
  · intro _
    exact Ledger.follows_of_untouched huntouched rfl
  · intro _ k x hk
    rw [huntouched] at hk
    exact absurd hk (by simp)

theorem Tracks.remove (h : Tracks verdict bound z l b) :
    Kept verdict bound fuel l b .remove := by
  by_cases hahead : b.top.ahead.isSome
  · exact h.refused (Pull.ask_remove_of (r := .error _) (remove_of_held hahead)) rfl
      (.inl hahead)
  · have hfree : b.top.ahead = none := Option.not_isSome_iff_eq_none.mp hahead
    cases hz : z.touched with
    | none =>
        have hask : (onBench fuel verdict).remove b
            = .of (.error (.notMoved .remove true)) b :=
          (remove_of_free hfree).trans (Bench.remove_of_untouched h.shows hz)
        exact h.refused (Pull.ask_remove_of hask) rfl
          (.inr ((h.follows hfree).steady_of_untouched hz))
    | some i => exact h.removed hfree hz

/-! ## §3. Every run. -/

theorem Tracks.kept (h : Tracks verdict bound z l b) (hfuel : b.items.length < fuel)
    (call : Pull) : Kept verdict bound fuel l b call := by
  cases call with
  | next => exact h.next hfuel
  | hasNext => exact h.hasNext hfuel
  | remove => exact h.remove

/-- Along every run of a filter on a cursor in a list, a removal that is not refused removes the
match returned last, unless the cursor has strayed; then it removes a rejected element. -/
theorem removals_trusted (verdict : α → Except Failure Bool) (xs : List α) {start : Place}
    {n fuel : Nat} (calls : List Pull) (hn : n ≤ xs.length)
    (hstart : start.StandsAt n xs.length) (hfuel : xs.length < fuel) :
    Along (Pull.ask (onBench fuel verdict)) Pull.call (Treats verdict) calls {}
      { items := xs, cursor := { position := start }, top := {} } := by
  have hspans : Cursor.Spans { position := start } xs.length (.ofList xs n) :=
    Cursor.spans_ofList hstart hn (Nat.le_refl _)
  have huntouched : (Zipper.ofList xs n).touched = none := Zipper.touched_of_uncrossed rfl
  have hstart' : Tracks verdict xs.length (.ofList xs n) {}
      { items := xs, cursor := { position := start }, top := {} } :=
    ⟨⟨(Zipper.items_ofList xs n).symm, hspans⟩, by simp, by simp,
      fun _ => Ledger.follows_of_untouched huntouched rfl,
      fun _ i x hi => by rw [huntouched] at hi; exact absurd hi (by simp)⟩
  -- The list never grows, so that the fuel lasts.
  refine along_of_invariant
    (fun _ l b => ∃ z, Tracks verdict xs.length z l b ∧ b.items.length ≤ xs.length)
    ?_ calls ⟨_, hstart', Nat.le_refl _⟩
  rintro k l b call ⟨z, hz, hlen⟩
  have hlt : b.items.length < fuel := by omega
  obtain ⟨r, b', hask, htreats, hlen', z', hz'⟩ := hz.kept hlt call
  exact ⟨r, b', hask, htreats, z', hz', by omega⟩

/-- Runs that end with the removal of a rejected element: one after `2` was returned, one before
anything was. -/
theorem removals_trusted_even :
    Along (Pull.ask (onBench 3 even)) Pull.call (Treats even) [.next, .hasNext, .remove] {}
        { items := [2, 1], cursor := { position := .plain 0 }, top := {} }
      ∧ Along (Pull.ask (onBench 3 even)) Pull.call (Treats even) [.hasNext, .remove] {}
        { items := [1], cursor := { position := .plain 0 }, top := {} } :=
  ⟨removals_trusted even [2, 1] [.next, .hasNext, .remove] (Nat.zero_le _)
      (Place.standsAt_plain (Nat.zero_le _)) (by decide),
    removals_trusted even [1] [.hasNext, .remove] (Nat.zero_le _)
      (Place.standsAt_plain (Nat.zero_le _)) (by decide)⟩

/-- Every removal is meant for the element returned last. -/
def Meant (l : Ledger) (call : Pull) (b : Bench α (Filter α)) (r : Except Failure (Answer α))
    (b' : Bench α (Filter α)) : Prop :=
  call = .remove → Faithful l List.eraseIdx b r b'

/-- Not every removal falls on the element returned last: after a search in vain, `1` is removed
though nothing was returned, and though `2` was. -/
theorem removals_not_always_meant :
    (¬ Along (Pull.ask (onBench 3 even)) Pull.call Meant [.hasNext, .remove] {}
        { items := [1], cursor := { position := .plain 0 }, top := {} })
      ∧ ¬ Along (Pull.ask (onBench 3 even)) Pull.call Meant [.next, .hasNext, .remove] {}
        { items := [2, 1], cursor := { position := .plain 0 }, top := {} } := by
  constructor
  · rintro ⟨r₁, b₁, h₁, -, r₂, b₂, h₂, hmeant, -⟩
    have hmore : Pull.hasNext.ask (onBench 3 even) ⟨[1], {}, {}⟩
        = .of (.ok (.truth false)) ⟨[1], ⟨.plain 1, some (.plain 0)⟩, {}⟩ := rfl
    obtain ⟨rfl, rfl⟩ := Outcome.of_inj (hmore.symm.trans h₁)
    have hremove : Pull.remove.ask (onBench 3 even) ⟨[1], ⟨.plain 1, some (.plain 0)⟩, {}⟩
        = .of (.ok .done) ⟨[], {}, {}⟩ := rfl
    obtain ⟨rfl, rfl⟩ := Outcome.of_inj (hremove.symm.trans h₂)
    obtain ⟨i, hreturned, -⟩ := hmeant rfl
    have hreturned' : none = some i := hreturned
    exact absurd hreturned' (by simp)
  · rintro ⟨r₁, b₁, h₁, -, r₂, b₂, h₂, -, r₃, b₃, h₃, hmeant, -⟩
    have hnext : Pull.next.ask (onBench 3 even) ⟨[2, 1], {}, {}⟩
        = .of (.ok (.element 2)) ⟨[2, 1], ⟨.plain 1, some (.plain 0)⟩, {}⟩ := rfl
    obtain ⟨rfl, rfl⟩ := Outcome.of_inj (hnext.symm.trans h₁)
    have hmore : Pull.hasNext.ask (onBench 3 even) ⟨[2, 1], ⟨.plain 1, some (.plain 0)⟩, {}⟩
        = .of (.ok (.truth false)) ⟨[2, 1], ⟨.plain 2, some (.plain 1)⟩, {}⟩ := rfl
    obtain ⟨rfl, rfl⟩ := Outcome.of_inj (hmore.symm.trans h₂)
    have hremove : Pull.remove.ask (onBench 3 even) ⟨[2, 1], ⟨.plain 2, some (.plain 1)⟩, {}⟩
        = .of (.ok .done) ⟨[2], ⟨.plain 1, none⟩, {}⟩ := rfl
    obtain ⟨rfl, rfl⟩ := Outcome.of_inj (hremove.symm.trans h₃)
    obtain ⟨i, hreturned, htouched, -⟩ := hmeant rfl
    have hreturned' : some 0 = some i := hreturned
    have htouched' : some 1 = some i := htouched
    exact absurd (hreturned'.trans htouched'.symm) (by decide)

end Filter

end Cursors
