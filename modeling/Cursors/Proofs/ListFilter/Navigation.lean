/-
  Cursors.Proofs.ListFilter.Navigation
  ────────────────────────────────────
  **A TWO-WAY FILTER IS A CURSOR ON THE MATCHING ELEMENTS.**

  `Stand` is where a user of the filter believes to be: a gap in the list,
  and whether the nearest match on one side has been looked up already.
  `Step` says what each call answers there and where it leads, in terms of
  the matches on either side only:

      next, previous        cross the nearest match, or end
      hasNext, hasPrevious  tell whether there is one, and move nothing
      add                   puts an element nearest behind the gap
      remove, set           edit the element just crossed

  Main result (`navigates_matches`): every run of calls takes these steps.
  The filter itself keeps its cursor elsewhere, just past a match that it
  holds; `Agrees` is the invariant that ties the two together.
-/
import Cursors.Proofs.ListFilter.Search

namespace Cursors

namespace ListFilter

variable {σ α : Type}

/-! ## §1. The cursor on the matches. -/

/-- A gap in the list as the user of a filter sees it; `crossed` is the direction of the last
call if that call crossed a match or replaced one. -/
structure Stand (α : Type) extends Zipper α where
  /-- The side on which the nearest match has been looked up. -/
  held : Option Direction := none
  deriving Repr, DecidableEq

/-- The stand in the gap of a zipper before any match is looked up. -/
def Stand.free (z : Zipper α) : Stand α := ⟨z, none⟩

@[simp] theorem Stand.toZipper_free (z : Zipper α) : (Stand.free z).toZipper = z := rfl

@[simp] theorem Stand.held_free (z : Zipper α) : (Stand.free z).held = none := rfl

section

variable (verdict : α → Except Failure Bool)

/-- The matches in a direction, the nearest first. -/
def Stand.matched (g : Stand α) (d : Direction) : List α :=
  (g.toward d).filter (matching verdict)

/-- The failure of the predicate in a call that needs the nearest match in a direction.  For a
match that was looked up before the predicate is not called again. -/
def Stand.failing (g : Stand α) (d : Direction) : Option Failure :=
  if g.held = some d then none
  else
    match look verdict (g.toward d) with
    | .ok _ => none
    | .error e => some e

/-- The list and the division of its matches are the same. -/
structure Stand.Still (g g' : Stand α) : Prop where
  items_eq : g'.items = g.items
  matched_eq : ∀ d, g'.matched verdict d = g.matched verdict d

/-- A question for a match tells whether there is one, and leaves the gap between the matches
where it is. -/
structure Finds (d : Direction) (g : Stand α) (r : Except Failure (Answer α)) (g' : Stand α) :
    Prop where
  still : g.Still verdict g'
  crossed_eq : g'.crossed = none
  answer :
    match g.failing verdict d with
    | some e => r = .error e ∧ g'.held = none
    | none => r = .ok (.truth (!(g.matched verdict d).isEmpty))
        ∧ g'.held = if (g.matched verdict d).isEmpty then none else some d

/-- A move answers with the nearest match and takes it to the other side; it ends exactly if
there is none. -/
structure Moves (d : Direction) (g : Stand α) (r : Except Failure (Answer α)) (g' : Stand α) :
    Prop where
  items_eq : g'.items = g.items
  held_eq : g'.held = none
  answer :
    match g.failing verdict d, g.matched verdict d with
    | some e, _ => r = .error e ∧ g.Still verdict g' ∧ g'.crossed = none
    | none, [] => r = .error .ended ∧ g.Still verdict g' ∧ g'.crossed = none
    | none, x :: rest => r = .ok (.element x) ∧ g'.crossed = some d
        ∧ (g'.toward d.opposite).head? = some x
        ∧ g'.matched verdict d = rest
        ∧ g'.matched verdict d.opposite = x :: g.matched verdict d.opposite

/-- An insertion puts the new element nearest behind the gap, unless a match has been looked up.
If the predicate fails on the element, it is in the list all the same. -/
def Inserts (x : α) (g : Stand α) (r : Except Failure (Answer α)) (g' : Stand α) : Prop :=
  match g.held with
  | some _ => r = .error (.heldAhead .add true) ∧ g' = { g with crossed := none }
  | none => r = (verdict x).map (fun _ => .done) ∧ g' = .free (g.inserted x)

/-- What a call answers, and where it leads. -/
def Step (g : Stand α) (call : Call α) (r : Except Failure (Answer α)) (g' : Stand α) : Prop :=
  match call with
  | .next => Moves verdict .forward g r g'
  | .previous => Moves verdict .backward g r g'
  | .hasNext => Finds verdict .forward g r g'
  | .hasPrevious => Finds verdict .backward g r g'
  | .add x => Inserts verdict x g r g'
  | .set x => r = .ok .done ∧ g' = .free (g.replaced x)
  | .remove => r = .ok .done ∧ g' = .free g.removed

/-- Removals and replacements follow a move or a replacement directly. -/
def Stand.Permits (g : Stand α) : Call α → Prop
  | .set _ => g.crossed ≠ none
  | .remove => g.crossed ≠ none
  | _ => True

/-- The list is the one of the stand, and its matches are those on the two sides. -/
structure Divides (xs : List α) (g : Stand α) : Prop where
  items_eq : xs = g.items
  filter_eq : xs.filter (matching verdict)
    = (g.matched verdict .backward).reverse ++ g.matched verdict .forward

/-- A run of permitted calls takes the steps of a cursor on the matches. -/
def Navigates (source : TwoWay (Bench α (ListFilter α)) α) :
    List (Call α) → Stand α → Bench α (ListFilter α) → Prop
  | [], g, b => Divides verdict b.items g
  | call :: calls, g, b => Divides verdict b.items g
      ∧ (g.Permits call → ∃ r b' g', call.ask source b = .of r b'
          ∧ Step verdict g call r g' ∧ Navigates source calls g' b')

end

variable {verdict : α → Except Failure Bool}

theorem divides_items (g : Stand α) : Divides verdict g.items g where
  items_eq := rfl
  filter_eq := by
    simp [Zipper.items, Stand.matched, Zipper.toward, List.filter_reverse]

/-! ## §2. The invariant. -/

/-- The filter `f` on the cursor in the gap of `z` is at work where the stand says. -/
structure Simulates (verdict : α → Except Failure Bool) (z : Zipper α) (f : ListFilter α)
    (g : Stand α) : Prop where
  sound : Sound verdict z f
  toward_eq : ∀ d, g.toward d = (gap z f).toward d
  held_iff : ∀ d, (f.held d).isSome ↔ g.held = some d
  /-- An element just crossed by the filter is the one that the cursor crossed last. -/
  crossed : ∀ d, g.crossed = some d →
    z.crossed = some d ∧ f.moved = some d ∧ g.held = none ∧ g.toward d.opposite ≠ []

namespace Simulates

variable {z : Zipper α} {f : ListFilter α} {g : Stand α}

theorem items_eq (h : Simulates verdict z f g) : g.items = z.items := by
  rw [Zipper.items_eq_of_toward h.toward_eq, items_gap]

theorem matched_eq (h : Simulates verdict z f g) (d : Direction) :
    g.matched verdict d = ((gap z f).toward d).filter (matching verdict) := by
  rw [Stand.matched, h.toward_eq]

/-- A stand on which no match is looked up is where the cursor is. -/
theorem of_free (hf : ∀ d, f.held d = none) (hm : ∀ d, z.crossed = some d →
    f.moved = some d ∧ z.toward d.opposite ≠ []) : Simulates verdict z f (.free z) where
  sound := sound_of_free hf
  toward_eq d := by rw [gap_of_free hf, Stand.toZipper_free]
  held_iff d := by simp [hf d]
  crossed d hd := ⟨hd, (hm d hd).1, rfl, (hm d hd).2⟩

/-- The same after a call that leaves nothing to edit. -/
theorem of_free_settled (hf : ∀ d, f.held d = none) :
    Simulates verdict z f (.free z.settled) where
  sound := sound_of_free hf
  toward_eq d := by rw [gap_of_free hf, Stand.toZipper_free, z.toward_settled]
  held_iff d := by simp [hf d]
  crossed d hd := by simp at hd

/-- A call that changes nothing still ends the time for edits. -/
theorem settled (h : Simulates verdict z f g) : Simulates verdict z f ⟨g.settled, g.held⟩ where
  sound := h.sound
  toward_eq d := by rw [← h.toward_eq, ← g.toward_settled]
  held_iff := h.held_iff
  crossed d hd := by simp at hd

end Simulates

/-! ## §3. One call. -/

variable {fuel bound : Nat} {b : Bench α (ListFilter α)} {g : Stand α}

/-- The filter on the bench is at work where the stand says. -/
def Agrees (verdict : α → Except Failure Bool) (bound : Nat) (b : Bench α (ListFilter α))
    (g : Stand α) : Prop :=
  ∃ z, b.Shows bound z ∧ Simulates verdict z b.top g

theorem Agrees.items_eq (h : Agrees verdict bound b g) : b.items = g.items := by
  obtain ⟨z, hb, hz⟩ := h
  rw [hb.items_eq, hz.items_eq]

theorem failing_of_held {d : Direction} (hd : g.held = some d) : g.failing verdict d = none := by
  rw [Stand.failing, if_pos hd]

theorem failing_of_not_held {d : Direction} (hd : g.held ≠ some d) :
    g.failing verdict d = match look verdict (g.toward d) with
      | .ok _ => none
      | .error e => some e := by
  rw [Stand.failing, if_neg hd]

theorem still_of_toward {z : Zipper α} {g' : Stand α}
    (hg : ∀ d, g'.toward d = z.toward d)
    (hz : z.items = g.items) (hm : ∀ d, (z.toward d).filter (matching verdict)
      = g.matched verdict d) : g.Still verdict g' where
  items_eq := (Zipper.items_eq_of_toward hg).trans hz
  matched_eq d := by rw [Stand.matched, hg, hm]

/-- The matches stay on their sides while only rejected elements are crossed. -/
theorem Simulates.matched_of_cross {z : Zipper α} {f : ListFilter α}
    (h : Simulates verdict z f g) {d : Direction} {n : Nat}
    (hn : ∀ y ∈ (g.toward d).take n, matching verdict y = false) (e : Direction) :
    (((gap z f).cross d n).toward e).filter (matching verdict) = g.matched verdict e := by
  rw [h.toward_eq] at hn
  rw [Zipper.filter_toward_cross _ hn, h.matched_eq]

/-- Looking up the nearest match of those in front of the gap. -/
theorem Simulates.of_found {z : Zipper α} {f f' : ListFilter α} (h : Simulates verdict z f g)
    {d : Direction} {pre post : List α} {x : α} (hys : g.toward d = pre ++ x :: post)
    (hx : verdict x = .ok true) (hd : f'.held d = some x) (ho : f'.held d.opposite = none) :
    Simulates verdict ((gap z f).cross d (pre.length + 1)) f'
      ⟨((gap z f).cross d pre.length).settled, some d⟩ := by
  have hG : (gap z f).toward d = pre ++ x :: post := by rw [← h.toward_eq, hys]
  have hsound := sound_of_found hG hx hd ho
  refine ⟨hsound, fun e => ?_, fun e => ?_, by simp⟩
  · -- The cursor is past the match; the gap is back in front of it.
    have hlen : pre.length < ((gap z f).toward d).length := by rw [hG]; simp
    rw [hsound.gap_of_held (d := d) (by simp [hd]),
      (gap z f).toward_cross_cross_opposite hlen]
    exact Zipper.toward_settled _ e
  · rcases d.eq_or_eq_opposite e with rfl | rfl
    · simp [hd]
    · simp [ho, d.opposite_ne.symm]

/-- A search that finds nothing leaves every match on its side. -/
theorem Simulates.of_skipped {z : Zipper α} (h : Simulates verdict z b.top g) {d : Direction}
    {n : Nat} (hn : ∀ y ∈ (g.toward d).take n, matching verdict y = false)
    {b' : Bench α (ListFilter α)} (hb' : b'.Shows bound ((gap z b.top).cross d n))
    (hf : ∀ e, b'.top.held e = none) :
    ∃ g', g.Still verdict g' ∧ g'.crossed = none ∧ g'.held = none
      ∧ Agrees verdict bound b' g' := by
  have hitems : ((gap z b.top).cross d n).items = g.items := by simp [h.items_eq]
  exact ⟨_, still_of_toward (fun e => Zipper.toward_settled _ e) hitems (h.matched_of_cross hn),
    rfl, rfl, _, hb', .of_free_settled hf⟩

/-- A call comes to an answer and a new stand of which `P` holds, and which the filter agrees
with. -/
def Comes (verdict : α → Except Failure Bool) (bound fuel : Nat) (b : Bench α (ListFilter α))
    (call : Call α) (P : Except Failure (Answer α) → Stand α → Prop) : Prop :=
  ∃ r b' g', call.ask (onBench fuel verdict) b = .of r b' ∧ P r g' ∧ Agrees verdict bound b' g'

section

variable {z : Zipper α} {d : Direction}

/-- A question for a match that is held already: nothing is looked up. -/
theorem Simulates.finds_of_held (hz : Simulates verdict z b.top g) (hb : b.Shows bound z) {x : α}
    (hd : b.top.held d = some x) :
    Comes verdict bound fuel b (Call.hasMore d) (Finds verdict d g) := by
  have hg : g.held = some d := (hz.held_iff d).mp (by rw [hd]; rfl)
  obtain ⟨hx, -, -⟩ := hz.sound.near d x hd
  have hmatched : (g.matched verdict d).isEmpty = false := by
    rw [hz.matched_eq, hz.sound.toward_gap_of_held hd,
      List.filter_cons_of_pos (matching_of_match hx)]
    rfl
  have hask : (onBench fuel verdict).hasMore d b = .of (.ok true) b :=
    hasMore_of_held (by rw [hd]; rfl)
  refine ⟨_, b, ⟨g.settled, g.held⟩, Call.ask_hasMore_of hask, ⟨⟨rfl, ?_⟩, rfl, ?_⟩,
    z, hb, hz.settled⟩
  · intro e
    unfold Stand.matched
    rw [Zipper.toward_settled]
  · rw [failing_of_held hg, hmatched, hg]
    exact ⟨rfl, rfl⟩

/-- A question for a match that is not held: it is looked for from the gap. -/
theorem Simulates.finds_of_free (hz : Simulates verdict z b.top g) (hb : b.Shows bound z)
    (hfuel : z.items.length < fuel) (hd : b.top.held d = none) :
    Comes verdict bound fuel b (Call.hasMore d) (Finds verdict d g) := by
  have hg : g.held ≠ some d := by
    intro hg
    rw [← hz.held_iff, hd] at hg
    exact absurd hg (by simp)
  obtain ⟨b', hask, hb', htop⟩ := hasMore_of_not_held hb hz.sound hfuel hd
  rw [← hz.toward_eq] at hask hb' htop
  have hnone := held_of_hold_none hd
  -- Looking ends at a match, at the end of the list, or where the predicate fails.
  obtain ⟨pre, x, post, hys, hpre, hx, hlook, hpassed⟩ | ⟨hall, hlook, -⟩ |
    ⟨pre, x, post, e, hys, hpre, hx, hlook, hpassed⟩ := look_cases verdict (g.toward d)
  · rw [hlook] at hask htop
    rw [hpassed] at hb'
    have hskip : ∀ y ∈ (g.toward d).take pre.length, matching verdict y = false := by
      rw [hys, List.take_left]
      intro y hy
      exact matching_of_rejected (hpre y hy)
    have hmatched : (g.matched verdict d).isEmpty = false := by
      unfold Stand.matched
      rw [filter_of_match hys hpre hx]
      rfl
    have hitems : ((gap z b.top).cross d pre.length).items = g.items := by
      rw [Zipper.items_cross, items_gap, hz.items_eq]
    have hheld : b'.top.held d = some x := by
      rw [htop, held_hold]
      rfl
    have hother : b'.top.held d.opposite = none := by
      rw [htop, held_opposite_hold, held_hold]
    refine ⟨_, b', _, Call.ask_hasMore_of hask, ⟨?_, rfl, ?_⟩, _, hb',
      hz.of_found hys hx hheld hother⟩
    · exact still_of_toward (fun e => Zipper.toward_settled _ e) hitems (hz.matched_of_cross hskip)
    · rw [failing_of_not_held hg, hlook, hmatched]
      exact ⟨rfl, rfl⟩
  · rw [hlook, sighted, hold_of_held (hnone d)] at htop
    rw [hlook] at hask
    have hempty : (g.matched verdict d).isEmpty = true := by
      unfold Stand.matched
      rw [filter_of_rejected hall]
      rfl
    obtain ⟨g', hstill, hcrossed, hheld, hagrees⟩ :=
      hz.of_skipped (skipped_of_rejected hall _) hb' (by rw [htop]; exact hnone)
    refine ⟨_, b', g', Call.ask_hasMore_of hask, ⟨hstill, hcrossed, ?_⟩, hagrees⟩
    rw [failing_of_not_held hg, hlook, hempty]
    exact ⟨rfl, hheld⟩
  · rw [hlook, sighted, hold_of_held (hnone d)] at htop
    rw [hlook] at hask
    rw [hpassed] at hb'
    obtain ⟨g', hstill, hcrossed, hheld, hagrees⟩ :=
      hz.of_skipped (skipped_of_error hys hpre hx) hb' (by rw [htop]; exact hnone)
    refine ⟨_, b', g', Call.ask_hasMore_of hask, ⟨hstill, hcrossed, ?_⟩, hagrees⟩
    rw [failing_of_not_held hg, hlook]
    exact ⟨rfl, hheld⟩

/-- Right after a match was crossed the stand is where the cursor is. -/
theorem Simulates.of_crossed {f : ListFilter α} (hcrossed : z.crossed = some d) {x : α}
    {rest : List α} (hback : z.toward d.opposite = x :: rest) (hfree : ∀ e, f.held e = none)
    (hmoved : f.moved = some d) : Simulates verdict z f (.free z) := by
  refine .of_free hfree ?_
  intro e he
  obtain rfl : d = e := by rw [hcrossed, Option.some.injEq] at he; exact he
  exact ⟨hmoved, by rw [hback]; simp⟩

/-- A move across a match that is held: the cursor has crossed it before. -/
theorem Simulates.moves_of_held (hz : Simulates verdict z b.top g) (hb : b.Shows bound z) {x : α}
    (hd : b.top.held d = some x) :
    Comes verdict bound fuel b (Call.step d) (Moves verdict d g) := by
  have hg : g.held = some d := (hz.held_iff d).mp (by rw [hd]; rfl)
  obtain ⟨hx, hcrossed, rest, hrest⟩ := hz.sound.near d x hd
  have hother : b.top.held d.opposite = none := hz.sound.single d (by rw [hd]; rfl)
  have hmatched : g.matched verdict d = x :: (z.toward d).filter (matching verdict) := by
    rw [hz.matched_eq, hz.sound.toward_gap_of_held hd,
      List.filter_cons_of_pos (matching_of_match hx)]
  have hopposite : g.matched verdict d.opposite = rest.filter (matching verdict) := by
    rw [hz.matched_eq, hz.sound.toward_opposite_gap_of_held (by rw [hd]; rfl), hrest]
    rfl
  have hask : (onBench fuel verdict).step d b
      = .of (.ok x) { b with top := b.top.counted d } := step_of_held hd
  refine ⟨_, _, .free z, Call.ask_step_of hask, ⟨hz.items_eq.symm, rfl, ?_⟩, z, hb.withTop _,
    .of_crossed hcrossed hrest (held_counted_of_single hother) (moved_counted _ d)⟩
  rw [failing_of_held hg, hmatched, hopposite]
  unfold Stand.matched
  rw [Stand.toZipper_free, hrest, List.filter_cons_of_pos (matching_of_match hx)]
  exact ⟨rfl, hcrossed, rfl, rfl, rfl⟩

/-- A move across a match that is not held: it is looked for from the gap and crossed. -/
theorem Simulates.moves_of_free (hz : Simulates verdict z b.top g) (hb : b.Shows bound z)
    (hfuel : z.items.length < fuel) (hd : b.top.held d = none) :
    Comes verdict bound fuel b (Call.step d) (Moves verdict d g) := by
  have hg : g.held ≠ some d := by
    intro hg
    rw [← hz.held_iff, hd] at hg
    exact absurd hg (by simp)
  -- What lies ahead of the stand is what the filter looks along.
  obtain ⟨b', hask, hb', htop⟩ := step_of_not_held hb hz.sound hfuel hd
  rw [← hz.toward_eq] at hask hb' htop
  have hnone := held_of_hold_none hd
  obtain ⟨pre, x, post, hys, hpre, hx, hlook, hpassed⟩ | ⟨hall, hlook, -⟩ |
    ⟨pre, x, post, e, hys, hpre, hx, hlook, hpassed⟩ := look_cases verdict (g.toward d)
  · rw [hlook] at hask htop
    rw [hpassed] at hb'
    replace htop : b'.top = (b.top.hold d.opposite none).counted d := htop
    have hgap : (gap z b.top).toward d = pre ++ x :: post := by rw [← hz.toward_eq, hys]
    have hback := Zipper.toward_opposite_cross_append hgap
    have hcrossed : ((gap z b.top).cross d (pre.length + 1)).crossed = some d :=
      Zipper.crossed_cross _ d (Nat.succ_pos _)
    have hmatched : g.matched verdict d = x :: post.filter (matching verdict) :=
      filter_of_match hys hpre hx
    have hfree : ∀ e, b'.top.held e = none := by
      rw [htop]
      exact held_counted_of_single (hnone d.opposite)
    refine ⟨_, b', .free ((gap z b.top).cross d (pre.length + 1)), Call.ask_step_of hask,
      ⟨?_, rfl, ?_⟩, _, hb', .of_crossed hcrossed hback hfree (by rw [htop, moved_counted])⟩
    · rw [Stand.toZipper_free, Zipper.items_cross, items_gap, hz.items_eq]
    · rw [failing_of_not_held hg, hlook, hmatched, hz.matched_eq]
      unfold Stand.matched
      rw [Stand.toZipper_free, hback, Zipper.toward_cross_append hgap,
        List.filter_cons_of_pos (matching_of_match hx), List.filter_append, List.filter_reverse,
        filter_of_rejected hpre]
      exact ⟨rfl, hcrossed, rfl, rfl, rfl⟩
  · rw [hlook] at hask htop
    have hempty : g.matched verdict d = [] := filter_of_rejected hall
    obtain ⟨g', hstill, hcrossed, hheld, hagrees⟩ :=
      hz.of_skipped (skipped_of_rejected hall _) hb' (by rw [htop]; exact hnone)
    refine ⟨_, b', g', Call.ask_step_of hask, ⟨hstill.items_eq, hheld, ?_⟩, hagrees⟩
    rw [failing_of_not_held hg, hlook, hempty]
    exact ⟨rfl, hstill, hcrossed⟩
  · rw [hlook] at hask htop
    rw [hpassed] at hb'
    obtain ⟨g', hstill, hcrossed, hheld, hagrees⟩ :=
      hz.of_skipped (skipped_of_error hys hpre hx) hb' (by rw [htop]; exact hnone)
    refine ⟨_, b', g', Call.ask_step_of hask, ⟨hstill.items_eq, hheld, ?_⟩, hagrees⟩
    rw [failing_of_not_held hg, hlook]
    exact ⟨rfl, hstill, hcrossed⟩

end

theorem Agrees.finds (h : Agrees verdict bound b g) (hfuel : b.items.length < fuel)
    (d : Direction) : Comes verdict bound fuel b (Call.hasMore d) (Finds verdict d g) := by
  obtain ⟨z, hb, hz⟩ := h
  rw [hb.items_eq] at hfuel
  cases hd : b.top.held d with
  | some x => exact hz.finds_of_held hb hd
  | none => exact hz.finds_of_free hb hfuel hd

theorem Agrees.moves (h : Agrees verdict bound b g) (hfuel : b.items.length < fuel)
    (d : Direction) : Comes verdict bound fuel b (Call.step d) (Moves verdict d g) := by
  obtain ⟨z, hb, hz⟩ := h
  rw [hb.items_eq] at hfuel
  cases hd : b.top.held d with
  | some x => exact hz.moves_of_held hb hd
  | none => exact hz.moves_of_free hb hfuel hd

theorem Simulates.isHolding_iff {z : Zipper α} {f : ListFilter α} (h : Simulates verdict z f g) :
    f.IsHolding ↔ g.held ≠ none := by
  have ha : f.ahead.isSome ↔ g.held = some .forward := h.held_iff .forward
  have hb : f.behind.isSome ↔ g.held = some .backward := h.held_iff .backward
  rw [IsHolding, ha, hb]
  cases g.held with
  | none => simp
  | some d => cases d <;> simp

/-- Without a match looked up, the stand is the gap of the cursor. -/
theorem Simulates.toward_eq_of_free {z : Zipper α} {f : ListFilter α}
    (h : Simulates verdict z f g) (hg : g.held = none) (d : Direction) :
    g.toward d = z.toward d := by
  have hf := held_of_not_holding (f := f) (by rw [h.isHolding_iff, hg]; simp)
  rw [h.toward_eq, gap_of_free hf]

theorem Agrees.inserts (h : Agrees verdict bound b g) (hroom : b.items.length < bound) (x : α) :
    Comes verdict bound fuel b (.add x) (Inserts verdict x g) := by
  obtain ⟨z, hb, hz⟩ := h
  rw [hb.items_eq] at hroom
  match hg : g.held with
  | some d =>
      have hholding : b.top.IsHolding := by rw [hz.isHolding_iff, hg]; simp
      refine ⟨_, b, { g with crossed := none },
        Call.ask_add_of (r := .error _) (add_of_holding hholding x), ?_, z, hb, hz.settled⟩
      unfold Inserts
      rw [hg]
      exact ⟨rfl, rfl⟩
  | none =>
      have hholding : ¬ b.top.IsHolding := by rw [hz.isHolding_iff, hg]; simp
      have hfree := held_of_not_holding hholding
      obtain ⟨b', hask, hb', htop⟩ :=
        ask_add_of_not_holding fuel verdict hholding hb hroom x
      have hfree' : ∀ e, b'.top.held e = none := by
        intro e
        rw [htop, held_added, hfree]
      have hz' : (z.inserted x).settled = g.inserted x := by
        have hback : g.back = z.back := hz.toward_eq_of_free hg .backward
        have hfront : g.front = z.front := hz.toward_eq_of_free hg .forward
        rw [Zipper.inserted, Zipper.inserted, hback, hfront]
        rfl
      refine ⟨_, b', _, hask, ?_, z.inserted x, hb', .of_free_settled hfree'⟩
      unfold Inserts
      rw [hg, hz']
      exact ⟨rfl, rfl⟩

/-- After a crossing, the stand is the zipper of the cursor, and there is an element to edit. -/
theorem Simulates.touched {z : Zipper α} {f : ListFilter α} (h : Simulates verdict z f g)
    {d : Direction} (hd : g.crossed = some d) :
    g.toZipper = z ∧ ¬ f.IsHolding ∧ f.moved = some d ∧ ∃ i, z.touched = some i := by
  obtain ⟨hcrossed, hmoved, hheld, hne⟩ := h.crossed d hd
  -- With nothing held the gap of the filter is that of the cursor.
  have heq : g.toZipper = z :=
    Zipper.eq_of_toward (h.toward_eq_of_free hheld) (hd.trans hcrossed.symm)
  have hholding : ¬ f.IsHolding := by rw [h.isHolding_iff, hheld]; simp
  obtain ⟨x, rest, hx⟩ := List.exists_cons_of_ne_nil hne
  rw [heq] at hx
  obtain ⟨i, hi, -⟩ := Zipper.touched_of_toward hcrossed hx
  exact ⟨heq, hholding, hmoved, i, hi⟩

theorem Agrees.replaces (h : Agrees verdict bound b g) (hg : g.crossed ≠ none) (x : α) :
    ∃ b', (Call.set x).ask (onBench fuel verdict) b = .of (.ok .done) b'
      ∧ Agrees verdict bound b' (.free (g.replaced x)) := by
  obtain ⟨z, hb, hz⟩ := h
  obtain ⟨d, hd⟩ := Option.ne_none_iff_exists'.mp hg
  obtain ⟨heq, hholding, hmoved, i, hi⟩ := hz.touched hd
  obtain ⟨b', hset, hb', htop⟩ := Bench.set_of_touched hb hi x
  rw [heq]
  have hask : (onBench fuel verdict).set x b = .value () b' :=
    (set_of_not_holding hholding x).trans hset
  refine ⟨b', Call.ask_set_of (r := .ok ()) hask, _, hb', .of_free ?_ ?_⟩
  · intro e
    rw [htop, held_of_not_holding hholding]
  · intro e he
    rw [Zipper.crossed_replaced] at he
    obtain ⟨-, -, -, hne⟩ := hz.crossed e (by rw [heq, he])
    obtain ⟨y, rest, hy⟩ := List.exists_cons_of_ne_nil hne
    rw [heq] at hy
    rw [htop, Zipper.toward_opposite_replaced he hy x]
    refine ⟨?_, by simp⟩
    rw [hmoved, ← hd, heq, he]

theorem Agrees.removes (h : Agrees verdict bound b g) (hg : g.crossed ≠ none) :
    ∃ b', Call.remove.ask (onBench fuel verdict) b = .of (.ok .done) b'
      ∧ Agrees verdict bound b' (.free g.removed) := by
  obtain ⟨z, hb, hz⟩ := h
  obtain ⟨d, hd⟩ := Option.ne_none_iff_exists'.mp hg
  obtain ⟨heq, hholding, hmoved, i, hi⟩ := hz.touched hd
  obtain ⟨b', hremove, hb', htop⟩ := remove_of_touched fuel verdict hholding hmoved hb hi
  rw [heq]
  refine ⟨b', Call.ask_remove_of (r := .ok ()) hremove, _, hb', .of_free ?_ ?_⟩
  · intro e
    rw [htop, held_dropped, held_of_not_holding hholding]
  · intro e he
    rw [Zipper.crossed_removed] at he
    exact absurd he (by simp)

/-! ## §4. Every run. -/

/-- A permitted call takes the step of a cursor on the matches. -/
theorem Agrees.step (h : Agrees verdict bound b g) (hroom : b.items.length < bound)
    (hfuel : b.items.length < fuel) {call : Call α} (hcall : g.Permits call) :
    Comes verdict bound fuel b call (Step verdict g call) := by
  cases call with
  | next => exact h.moves hfuel .forward
  | previous => exact h.moves hfuel .backward
  | hasNext => exact h.finds hfuel .forward
  | hasPrevious => exact h.finds hfuel .backward
  | add x => exact h.inserts hroom x
  | set x =>
      obtain ⟨b', hask, hb'⟩ := h.replaces hcall x
      exact ⟨_, b', _, hask, ⟨rfl, rfl⟩, hb'⟩
  | remove =>
      obtain ⟨b', hask, hb'⟩ := h.removes hcall
      exact ⟨_, b', _, hask, ⟨rfl, rfl⟩, hb'⟩

theorem Step.length_le {g g' : Stand α} {call : Call α} {r : Except Failure (Answer α)}
    (h : Step verdict g call r g') : g'.items.length ≤ g.items.length + 1 := by
  cases call with
  | next => rw [Moves.items_eq h]; omega
  | previous => rw [Moves.items_eq h]; omega
  | hasNext => rw [(Finds.still h).items_eq]; omega
  | hasPrevious => rw [(Finds.still h).items_eq]; omega
  | add x =>
      rw [Step, Inserts] at h
      split at h
      · rw [h.2]
        exact Nat.le_succ _
      · apply Nat.le_of_eq
        rw [h.2, Stand.toZipper_free, Zipper.length_inserted]
  | set x =>
      rw [h.2, Stand.toZipper_free, Zipper.length_replaced]
      omega
  | remove =>
      have := g.length_removed_le
      rw [h.2, Stand.toZipper_free]
      omega

theorem Agrees.navigates {calls : List (Call α)} (h : Agrees verdict bound b g)
    (hroom : b.items.length + calls.length ≤ bound)
    (hfuel : b.items.length + calls.length < fuel) :
    Navigates verdict (onBench fuel verdict) calls g b := by
  have hdivides : Divides verdict b.items g := by
    rw [h.items_eq]
    exact divides_items g
  -- The induction is on the calls, each of which uses up room for one insertion.
  induction calls generalizing b g with
  | nil => exact hdivides
  | cons call calls ih =>
      rw [List.length_cons] at hroom hfuel
      refine ⟨hdivides, fun hcall => ?_⟩
      have hlt : b.items.length < fuel := by omega
      obtain ⟨r, b', g', hask, hstep, h'⟩ := h.step (by omega) hlt hcall
      have hlen := hstep.length_le
      rw [← h.items_eq, ← h'.items_eq] at hlen
      refine ⟨r, b', g', hask, hstep, ih h' (by omega) (by omega) ?_⟩
      rw [h'.items_eq]
      exact divides_items g'

theorem agrees_ofList {xs : List α} {start : Place} {n : Nat} (hstart : start.StandsAt n bound)
    (hn : n ≤ xs.length) (hxs : xs.length ≤ bound) :
    Agrees verdict bound { items := xs, cursor := { position := start }, top := {} }
      (.free (.ofList xs n)) :=
  ⟨.ofList xs n, ⟨(Zipper.items_ofList xs n).symm, Cursor.spans_ofList hstart hn hxs⟩,
    .of_free (fun d => by cases d <;> rfl) (fun d hd => absurd hd (by simp [Zipper.ofList]))⟩

/-- A two-way filter on a cursor in a list navigates as a cursor on the matches, for every
predicate, for every run of calls and from every start that stands at `n`.  A start without a width
always serves; one of a fixed width, which would wrap around, has to hold the number of elements
that there can be in the run. -/
theorem navigates_matches (verdict : α → Except Failure Bool) (xs : List α) {start : Place}
    {n fuel : Nat} (calls : List (Call α)) (hn : n ≤ xs.length)
    (hstart : start.StandsAt n (xs.length + calls.length))
    (hfuel : xs.length + calls.length < fuel) :
    Navigates verdict (onBench fuel verdict) calls (.free (.ofList xs n))
      { items := xs, cursor := { position := start }, top := {} } :=
  (agrees_ofList hstart hn (Nat.le_add_right _ _)).navigates (Nat.le_refl _) hfuel

/-- A predicate that accepts the even numbers and fails on `3`. -/
def evenExceptThree (x : Nat) : Except Failure Bool :=
  if x = 3 then .error (.raised "ValueError" none) else .ok (x % 2 == 0)

/-- A run with turns at a held match, an insertion, a removal and a failing predicate, on a
position of eight bits. -/
theorem navigates_evenExceptThree :
    1 ≤ [2, 3, 4].length
      ∧ (Place.fixed (.signed 8) 1).StandsAt 1 9
      ∧ Navigates evenExceptThree (onBench 10 evenExceptThree)
          [.hasNext, .hasNext, .hasPrevious, .previous, .remove, .add 6]
          (.free (.ofList [2, 3, 4] 1))
          { items := [2, 3, 4], cursor := { position := .fixed (.signed 8) 1 }, top := {} } := by
  have hn : 1 ≤ [2, 3, 4].length := by decide
  have hreach : (9 : Int) ≤ (Number.Width.signed 8).greatest := by decide
  have hstart : (Place.fixed (.signed 8) 1).StandsAt 1 9 := ⟨rfl, by decide, hreach⟩
  exact ⟨hn, hstart, navigates_matches _ [2, 3, 4] _ hn hstart (by decide)⟩

end ListFilter

end Cursors
