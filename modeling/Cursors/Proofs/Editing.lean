/-
  Cursors.Proofs.Editing
  ──────────────────────
  **THE EDITING RULES OF A CURSOR.**

  A cursor in a list is a gap between what lies before it and what lies
  after it.  The rules speak of these two lists only, and of the past:

      next, previous   take one element across the gap, if there is one
      add              puts an element last before the gap
      set, remove      replace or drop the element of the last move, which
                       is the last one before the gap or the first after it
      reset            takes the gap to the front

  Whether there is such an element is read off the history (`crossedLast`):
  a move provides one, until a successful removal, insertion or reset.

  Main result (`follows_rules`): every run of gestures on a cursor in a list
  obeys the rules, and a gesture that fails changes nothing.
-/
import Cursors.Proofs.After
import Cursors.Proofs.Gesture

namespace Cursors

variable {α ρ : Type}

/-! ## §1. The past. -/

/-- The direction of the last move and the element that it crossed, or its replacement, from a
history that lists the latest gesture first; none if it cannot be edited any more. -/
def crossedLast : List (Gesture α × Except Failure (Reply α)) → Option (Direction × α)
  | [] => none
  | (.call .next, .ok (.answer (.element x))) :: _ => some (.forward, x)
  | (.call .previous, .ok (.answer (.element x))) :: _ => some (.backward, x)
  | (.call .remove, .ok _) :: _ | (.call (.add _), .ok _) :: _ | (.reset, .ok _) :: _ => none
  | (.call (.set x), .ok _) :: earlier => (crossedLast earlier).map fun p => (p.1, x)
  | _ :: earlier => crossedLast earlier

/-! ## §2. The rules. -/

/-- What lies before the gap and what lies after it. -/
structure Gap (α : Type) where
  before : List α
  after : List α
  deriving Repr, DecidableEq

namespace Gap

/-- What a gesture answers and where it leads, where `last` is the direction of the last move if
its element can be edited. -/
def respond (g : Gap α) (last : Option Direction) :
    Gesture α → Except Failure (Reply α) × Gap α
  | .call .next =>
      match g.after with
      | [] => (.error .ended, g)
      | x :: after => (.ok (.answer (.element x)), ⟨g.before ++ [x], after⟩)
  | .call .previous =>
      match g.before.getLast? with
      | none => (.error .ended, g)
      | some x => (.ok (.answer (.element x)), ⟨g.before.dropLast, x :: g.after⟩)
  | .call .hasNext => (.ok (.answer (.truth (!g.after.isEmpty))), g)
  | .call .hasPrevious => (.ok (.answer (.truth (!g.before.isEmpty))), g)
  | .call (.add x) => (.ok (.answer .done), ⟨g.before ++ [x], g.after⟩)
  | .call (.set x) =>
      match last with
      | none => (.error (.notMoved .set true), g)
      | some .forward => (.ok (.answer .done), ⟨g.before.dropLast ++ [x], g.after⟩)
      | some .backward => (.ok (.answer .done), ⟨g.before, x :: g.after.tail⟩)
  | .call .remove =>
      match last with
      | none => (.error (.notMoved .remove true), g)
      | some .forward => (.ok (.answer .done), ⟨g.before.dropLast, g.after⟩)
      | some .backward => (.ok (.answer .done), ⟨g.before, g.after.tail⟩)
  | .nextIndex => (.ok (.index g.before.length), g)
  | .previousIndex => (.ok (.index (g.before.length - 1)), g)
  | .reset => (.ok (.answer .done), ⟨[], g.before ++ g.after⟩)

end Gap

/-! ## §3. Gaps and zippers. -/

namespace Zipper

/-- The direction of the last crossing and the element crossed, if it can be edited. -/
def crossing (z : Zipper α) : Option (Direction × α) :=
  match z.crossed, z.back, z.front with
  | some .forward, x :: _, _ => some (.forward, x)
  | some .backward, _, x :: _ => some (.backward, x)
  | _, _, _ => none

variable {z : Zipper α}

theorem crossing_of_uncrossed (h : z.crossed = none) : z.crossing = none := by
  simp [crossing, h]

theorem crossing_cross {d : Direction} {x : α} {xs : List α} (h : z.toward d = x :: xs) :
    (z.cross d 1).crossing = some (d, x) := by
  cases d
  · have hf : z.front = x :: xs := h
    simp [crossing, cross, hf]
  · have hb : z.back = x :: xs := h
    simp [crossing, cross, hb]

/-- The element of a crossing is the one that lies nearest on the other side, and the one that is
touched. -/
theorem crossing_cases (z : Zipper α) :
    (z.crossing = none ∧ z.touched = none)
      ∨ (∃ x b f, z = ⟨x :: b, f, some .forward⟩ ∧ z.crossing = some (.forward, x)
        ∧ z.touched = some b.length)
      ∨ ∃ x b f, z = ⟨b, x :: f, some .backward⟩ ∧ z.crossing = some (.backward, x)
        ∧ z.touched = some b.length := by
  obtain ⟨b, f, c⟩ := z
  match c, b, f with
  | none, _, _ => exact .inl ⟨rfl, rfl⟩
  | some .forward, [], _ => exact .inl ⟨rfl, rfl⟩
  | some .forward, x :: b, f => exact .inr (.inl ⟨x, b, f, rfl, rfl, rfl⟩)
  | some .backward, _, [] => exact .inl ⟨rfl, rfl⟩
  | some .backward, b, x :: f => exact .inr (.inr ⟨x, b, f, rfl, rfl, rfl⟩)

/-- What a history says of the last crossing remains right. -/
theorem crossedLast_respond {history : List (Gesture α × Except Failure (Reply α))}
    (h : crossedLast history = z.crossing) (g : Gesture α) :
    crossedLast ((g, (z.respond g).1) :: history) = (z.respond g).2.crossing := by
  match g with
  | .call .next =>
      match hf : z.front with
      | [] =>
          rw [respond_next, move_of_toward_nil (d := .forward) hf]
          exact h
      | x :: xs =>
          rw [respond_next, move_of_toward_cons (d := .forward) hf]
          exact (crossing_cross (d := .forward) hf).symm
  | .call .previous =>
      match hb : z.back with
      | [] =>
          rw [respond_previous, move_of_toward_nil (d := .backward) hb]
          exact h
      | x :: xs =>
          rw [respond_previous, move_of_toward_cons (d := .backward) hb]
          exact (crossing_cross (d := .backward) hb).symm
  | .call .hasNext | .call .hasPrevious | .nextIndex | .previousIndex => exact h
  | .call (.add x) | .reset => exact (crossing_of_uncrossed rfl).symm
  | .call (.set x) =>
      rw [respond_set]
      obtain ⟨hc, ht⟩ | ⟨y, b, f, rfl, hc, ht⟩ | ⟨y, b, f, rfl, hc, ht⟩ := z.crossing_cases
      · rw [change_of_untouched ht]
        exact h
      · rw [change_of_touched ht]
        show (crossedLast history).map _ = _
        rw [h, hc]
        rfl
      · rw [change_of_touched ht]
        show (crossedLast history).map _ = _
        rw [h, hc]
        rfl
  | .call .remove =>
      rw [respond_remove]
      match ht : z.touched with
      | none =>
          rw [change_of_untouched ht]
          exact h
      | some i =>
          rw [change_of_touched ht]
          exact (crossing_of_uncrossed z.crossed_removed).symm

end Zipper

namespace Gap

/-- The gap of a zipper. -/
def ofZipper (z : Zipper α) : Gap α := ⟨z.back.reverse, z.front⟩

/-- A zipper responds as its gap does. -/
theorem respond_ofZipper (z : Zipper α) (g : Gesture α) :
    (ofZipper z).respond (z.crossing.map Prod.fst) g
      = ((z.respond g).1, ofZipper (z.respond g).2) := by
  match g with
  | .call .next =>
      obtain ⟨b, f, c⟩ := z
      match f with
      | [] => rfl
      | x :: f => simp [respond, ofZipper, Zipper.respond, Zipper.move, Zipper.toward, Zipper.cross]
  | .call .previous =>
      obtain ⟨b, f, c⟩ := z
      match b with
      | [] => rfl
      | x :: b => simp [respond, ofZipper, Zipper.respond, Zipper.move, Zipper.toward, Zipper.cross]
  | .call .hasNext => rfl
  | .call .hasPrevious | .nextIndex | .previousIndex | .call (.add x) | .reset =>
      simp [respond, ofZipper, Zipper.respond, Zipper.inserted, Zipper.rewound, Zipper.items]
  | .call (.set x) =>
      obtain ⟨hc, ht⟩ | ⟨y, b, f, rfl, hc, ht⟩ | ⟨y, b, f, rfl, hc, ht⟩ := z.crossing_cases
      · rw [Zipper.respond_set, Zipper.change_of_untouched ht, hc]
        rfl
      · rw [Zipper.respond_set, Zipper.change_of_touched ht, hc]
        simp [respond, ofZipper, Zipper.replaced]
      · rw [Zipper.respond_set, Zipper.change_of_touched ht, hc]
        rfl
  | .call .remove =>
      obtain ⟨hc, ht⟩ | ⟨y, b, f, rfl, hc, ht⟩ | ⟨y, b, f, rfl, hc, ht⟩ := z.crossing_cases
      · rw [Zipper.respond_remove, Zipper.change_of_untouched ht, hc]
        rfl
      · rw [Zipper.respond_remove, Zipper.change_of_touched ht, hc]
        simp [respond, ofZipper, Zipper.removed]
      · rw [Zipper.respond_remove, Zipper.change_of_touched ht, hc]
        rfl

end Gap

/-! ## §4. Every run. -/

/-- What a run has come to: the gestures with their answers, the latest first, and the gap that
the rules lead to. -/
structure Diary (α : Type) where
  gap : Gap α
  history : List (Gesture α × Except Failure (Reply α)) := []

namespace Diary

/-- The direction of the last move, if its element can be edited. -/
def last (l : Diary α) : Option Direction := (crossedLast l.history).map Prod.fst

/-- One more gesture was answered. -/
def note (l : Diary α) (g : Gesture α) (r : Except Failure (Reply α)) : Diary α where
  gap := (l.gap.respond l.last g).2
  history := (g, r) :: l.history

/-- The list and the cursor are as the diary says. -/
structure Describes (l : Diary α) (b : Bench α ρ) : Prop where
  items_eq : b.items = l.gap.before ++ l.gap.after
  nextIndex_eq : Cursor.nextIndex Bench.here b = .value (l.gap.before.length : Int) b
  /-- The element crossed last is nearest to the gap, on the side to which it was taken. -/
  before_of_forward : ∀ x, crossedLast l.history = some (.forward, x) →
    l.gap.before.getLast? = some x
  after_of_backward : ∀ x, crossedLast l.history = some (.backward, x) →
    l.gap.after.head? = some x

/-- A gesture obeys the rules. -/
structure Obeyed (l : Diary α) (g : Gesture α) (b : Bench α ρ) (r : Except Failure (Reply α))
    (b' : Bench α ρ) : Prop where
  before : l.Describes b
  reply_eq : r = (l.gap.respond l.last g).1
  after : (l.note g r).Describes b'
  /-- A gesture that fails changes nothing. -/
  kept : ∀ e, r = .error e → b' = b

/-- The diary speaks of the zipper that the cursor shows. -/
structure Keeps (l : Diary α) (bound : Nat) (b : Bench α ρ) (z : Zipper α) : Prop where
  shows : b.Shows bound z
  gap_eq : l.gap = .ofZipper z
  crossed_eq : crossedLast l.history = z.crossing

variable {l : Diary α} {bound : Nat} {b : Bench α ρ} {z : Zipper α}

theorem Keeps.describes (h : l.Keeps bound b z) : l.Describes b where
  items_eq := by
    rw [h.shows.items_eq, h.gap_eq]
    rfl
  nextIndex_eq := by
    show Outcome.value b.cursor.position.toInt b = _
    rw [h.shows.spans.position.toInt_eq, h.gap_eq]
    simp [Gap.ofZipper]
  before_of_forward := by
    intro x hx
    rw [h.crossed_eq] at hx
    rw [h.gap_eq]
    obtain ⟨hc, -⟩ | ⟨y, b, f, rfl, hc, -⟩ | ⟨y, b, f, rfl, hc, -⟩ := z.crossing_cases
    · simp [hc] at hx
    · simp_all [Gap.ofZipper]
    · simp [hc] at hx
  after_of_backward := by
    intro x hx
    rw [h.crossed_eq] at hx
    rw [h.gap_eq]
    obtain ⟨hc, -⟩ | ⟨y, b, f, rfl, hc, -⟩ | ⟨y, b, f, rfl, hc, -⟩ := z.crossing_cases
    · simp [hc] at hx
    · simp [hc] at hx
    · simp_all [Gap.ofZipper]

/-- A gesture obeys the rules, and the diary goes on. -/
theorem Keeps.ask (h : l.Keeps bound b z) (hroom : z.items.length < bound) (g : Gesture α) :
    ∃ r b', g.ask Bench.source Bench.rewind b = .of r b' ∧ l.Obeyed g b r b'
      ∧ (l.note g r).Keeps bound b' (z.respond g).2 := by
  obtain ⟨b', hask, hshows, -⟩ := Bench.ask_respond h.shows hroom g
  have hrespond : l.gap.respond l.last g = ((z.respond g).1, .ofZipper (z.respond g).2) := by
    rw [last, h.crossed_eq, h.gap_eq, Gap.respond_ofZipper]
  have hkeeps : (l.note g (z.respond g).1).Keeps bound b' (z.respond g).2 :=
    ⟨hshows, congrArg Prod.snd hrespond, Zipper.crossedLast_respond h.crossed_eq g⟩
  refine ⟨_, b', hask, ⟨h.describes, (congrArg Prod.fst hrespond).symm, hkeeps.describes, ?_⟩,
    hkeeps⟩
  intro e he
  have herror := Bench.ask_of_error h.shows he
  exact (Outcome.of_inj (hask.symm.trans herror)).2

end Diary

/-- A cursor in a list obeys the rules, in every run of gestures and from every start that stands at
`n`.  A start without a width always serves; one of a fixed width, which would wrap around, has to
hold the number of elements that there can be in the run. -/
theorem Bench.follows_rules (xs : List α) (gestures : List (Gesture α)) (top : ρ) {start : Place}
    {n : Nat} (hn : n ≤ xs.length) (hstart : start.StandsAt n (xs.length + gestures.length)) :
    Throughout (Gesture.ask Bench.source Bench.rewind) (fun l g _ r _ => l.note g r)
      Diary.Obeyed gestures { gap := ⟨xs.take n, xs.drop n⟩ }
      { items := xs, cursor := { position := start }, top } := by
  have hkeeps : Diary.Keeps { gap := ⟨xs.take n, xs.drop n⟩ } (xs.length + gestures.length)
      { items := xs, cursor := { position := start }, top } (.ofList xs n) :=
    ⟨⟨(Zipper.items_ofList xs n).symm,
        Cursor.spans_ofList hstart hn (Nat.le_add_right _ _)⟩,
      by simp [Gap.ofZipper, Zipper.ofList], rfl⟩
  -- Each gesture adds at most one element, for which there is room by the number of gestures.
  apply throughout_of_invariant
    (fun k l b => ∃ z, l.Keeps (xs.length + gestures.length) b z
      ∧ z.items.length + k ≤ xs.length + gestures.length)
    ?_ ⟨.ofList xs n, hkeeps, Nat.le_of_eq (by rw [Zipper.items_ofList])⟩
  rintro k l b g - ⟨z, hz, hroom⟩
  obtain ⟨r, b', hask, hobeyed, hz'⟩ := hz.ask (by omega) g
  have hle := z.length_respond_le g
  exact ⟨r, b', hask, hobeyed, _, hz', by omega⟩

/-- A run with edits on both sides of the gap, refused edits, both ends and a reset. -/
theorem Bench.follows_rules_three :
    1 ≤ [1, 2, 3].length ∧ (Place.plain 1).StandsAt 1 13
      ∧ Throughout (Gesture.ask Bench.source Bench.rewind) (fun l g _ r _ => l.note g r)
        Diary.Obeyed
        [.call .remove, .call .next, .call (.set 5), .call .previous, .call .remove,
          .call .remove, .call (.add 7), .call .next, .call .next, .reset]
        { gap := ⟨[1], [2, 3]⟩ }
        ({ items := [1, 2, 3], cursor := { position := .plain 1 }, top := () } :
          Bench Nat Unit) := by
  have hn : 1 ≤ [1, 2, 3].length := by decide
  have hstart : (Place.plain 1).StandsAt 1 13 := Place.standsAt_plain (by decide)
  exact ⟨hn, hstart, follows_rules [1, 2, 3] _ () hn hstart⟩

end Cursors
