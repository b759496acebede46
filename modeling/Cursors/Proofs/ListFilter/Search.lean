/-
  Cursors.Proofs.ListFilter.Search
  ────────────────────────────────
  **WHAT A TWO-WAY FILTER DOES TO THE CURSOR BELOW IT.**

  A filter that holds a match in direction `d` has moved the cursor just
  past it, so that the gap of the filter itself (`gap`) lies one element
  back.  Seen from there every operation is the same in both directions and
  whether or not a match is held on the other side (`seek_apply`):

      look along `(gap z f).toward d`, and leave the cursor
      behind the elements passed

  `hasMore_…` and `step_…` say what the four moves make of that.
-/
import Cursors.Proofs.Bench

namespace Cursors

namespace ListFilter

variable {σ α : Type}

/-! ## §1. The filter, seen in a direction. -/

/-- The match held in a direction. -/
def held (f : ListFilter α) : Direction → Option α
  | .forward => f.ahead
  | .backward => f.behind

/-- The filter with another match, or none, held in a direction. -/
def hold (f : ListFilter α) (d : Direction) (x : Option α) : ListFilter α :=
  match d with
  | .forward => { f with ahead := x }
  | .backward => { f with behind := x }

/-- The filter after its gap crossed a match in a direction. -/
def counted (f : ListFilter α) (d : Direction) : ListFilter α :=
  match d with
  | .forward => { f with ahead := none, index := f.index + 1, moved := some .forward }
  | .backward => { f with behind := none, index := f.index - 1, moved := some .backward }

@[simp] theorem held_hold (f : ListFilter α) (d : Direction) (x : Option α) :
    (f.hold d x).held d = x := by
  cases d <;> rfl

@[simp] theorem held_hold_opposite (f : ListFilter α) (d : Direction) (x : Option α) :
    (f.hold d.opposite x).held d = f.held d := by
  cases d <;> rfl

@[simp] theorem held_opposite_hold (f : ListFilter α) (d : Direction) (x : Option α) :
    (f.hold d x).held d.opposite = f.held d.opposite := by
  cases d <;> rfl

@[simp] theorem held_counted (f : ListFilter α) (d : Direction) : (f.counted d).held d = none := by
  cases d <;> rfl

@[simp] theorem held_opposite_counted (f : ListFilter α) (d : Direction) :
    (f.counted d).held d.opposite = f.held d.opposite := by
  cases d <;> rfl

/-- Nothing is held after a match was crossed. -/
theorem held_counted_of_single {f : ListFilter α} {d : Direction}
    (hd : f.held d.opposite = none) (e : Direction) : (f.counted d).held e = none := by
  rcases d.eq_or_eq_opposite e with rfl | rfl
  · rw [held_counted]
  · rw [held_opposite_counted, hd]

@[simp] theorem moved_counted (f : ListFilter α) (d : Direction) :
    (f.counted d).moved = some d := by
  cases d <;> rfl

@[simp] theorem moved_hold (f : ListFilter α) (d : Direction) (x : Option α) :
    (f.hold d x).moved = f.moved := by
  cases d <;> rfl

theorem hold_of_held {f : ListFilter α} {d : Direction} (h : f.held d = none) :
    f.hold d none = f := by
  obtain ⟨a, b, i, m⟩ := f
  cases d <;> simp only [held] at h <;> subst h <;> rfl

/-- Nothing is held after a search that found nothing. -/
theorem held_of_hold_none {f : ListFilter α} {d : Direction} (hd : f.held d = none)
    (e : Direction) : (f.hold d.opposite none).held e = none := by
  rcases d.eq_or_eq_opposite e with rfl | rfl
  · rw [held_hold_opposite, hd]
  · rw [held_hold]

/-- Look for a match in a direction. -/
def seek (fuel : Nat) (self : Field σ (ListFilter α)) (source : TwoWay σ α)
    (accepts : α → Act σ Bool) : Direction → Act σ (Option α)
  | .forward => seekNext fuel self source accepts
  | .backward => seekPrevious fuel self source accepts

section

variable (fuel : Nat) (self : Field σ (ListFilter α)) (source : TwoWay σ α)
  (accepts : α → Act σ Bool)

theorem seek_eq (d : Direction) : seek fuel self source accepts d = (do
    if ((← self.read).held d.opposite).isSome then
      self.modify (·.hold d.opposite none)
      match ← Filter.search (source.hasMore d) (source.step d) accepts fuel with
      | none => return none
      | some _ => do
          self.modify (·.hold d none)
          Filter.search (source.hasMore d) (source.step d) accepts fuel
    else Filter.search (source.hasMore d) (source.step d) accepts fuel) := by
  cases d <;> rfl

theorem hasMore_eq (d : Direction) : (twoWay fuel self source accepts).hasMore d = (do
    if ((← self.read).held d).isSome then return true
    match ← seek fuel self source accepts d with
    | some x => do
        self.modify (·.hold d (some x))
        return true
    | none => return false) := by
  cases d <;> rfl

theorem step_eq (d : Direction) : (twoWay fuel self source accepts).step d = (do
    match (← self.read).held d with
    | some x => do
        self.modify (·.counted d)
        return x
    | none =>
        match ← seek fuel self source accepts d with
        | some x => do
            self.modify (·.counted d)
            return x
        | none => Act.fail .ended) := by
  cases d <;> rfl

end

/-! ## §2. The gap of the filter. -/

/-- The zipper of the filter's own gap, given that of the cursor. -/
def gap (z : Zipper α) (f : ListFilter α) : Zipper α :=
  match f.ahead, f.behind with
  | some _, _ => z.cross .backward 1
  | none, some _ => z.cross .forward 1
  | none, none => z

/-- What is held is a match, just crossed by the cursor, and at most one is held. -/
structure Sound (verdict : α → Except Failure Bool) (z : Zipper α) (f : ListFilter α) :
    Prop where
  near : ∀ d x, f.held d = some x →
    verdict x = .ok true ∧ z.crossed = some d ∧ ∃ rest, z.toward d.opposite = x :: rest
  single : ∀ d, (f.held d).isSome → f.held d.opposite = none

variable {verdict : α → Except Failure Bool} {z : Zipper α} {f : ListFilter α}

theorem sound_of_free (h : ∀ d, f.held d = none) : Sound verdict z f where
  near d x hx := by simp [h d] at hx
  single d _ := h d.opposite

/-- A match is held where the search for it stopped. -/
theorem sound_of_found {g : Zipper α} {d : Direction} {pre post : List α} {x : α}
    (hg : g.toward d = pre ++ x :: post) (hx : verdict x = .ok true) (hd : f.held d = some x)
    (ho : f.held d.opposite = none) : Sound verdict (g.cross d (pre.length + 1)) f := by
  constructor
  · intro e y hy
    rcases d.eq_or_eq_opposite e with rfl | rfl
    · rw [hd, Option.some.injEq] at hy
      subst hy
      exact ⟨hx, g.crossed_cross e (Nat.succ_pos _), _,
        Zipper.toward_opposite_cross_append hg⟩
    · rw [ho] at hy
      exact absurd hy (by simp)
  · intro e he
    rcases d.eq_or_eq_opposite e with rfl | rfl
    · exact ho
    · rw [ho] at he
      exact absurd he (by simp)

theorem gap_of_free (h : ∀ d, f.held d = none) : gap z f = z := by
  have ha : f.ahead = none := h .forward
  have hb : f.behind = none := h .backward
  simp [gap, ha, hb]

theorem Sound.gap_of_held (hs : Sound verdict z f) {d : Direction} (h : (f.held d).isSome) :
    gap z f = z.cross d.opposite 1 := by
  have hother := hs.single d h
  cases d
  · obtain ⟨x, hx⟩ := Option.isSome_iff_exists.mp h
    simp only [held] at hx
    simp [gap, hx, Direction.opposite]
  · obtain ⟨x, hx⟩ := Option.isSome_iff_exists.mp h
    simp only [held, Direction.opposite] at hx hother
    simp [gap, hx, hother, Direction.opposite]

/-- The match held is the first element before the gap. -/
theorem Sound.toward_gap_of_held (hs : Sound verdict z f) {d : Direction} {x : α}
    (h : f.held d = some x) : (gap z f).toward d = x :: z.toward d := by
  obtain ⟨-, -, rest, hrest⟩ := hs.near d x h
  have hcross := z.toward_opposite_cross d.opposite 1
  rw [Direction.opposite_opposite, hrest] at hcross
  rw [hs.gap_of_held (d := d) (by simp [h]), hcross]
  rfl

theorem Sound.toward_opposite_gap_of_held (hs : Sound verdict z f) {d : Direction}
    (h : (f.held d).isSome) :
    (gap z f).toward d.opposite = (z.toward d.opposite).drop 1 := by
  rw [hs.gap_of_held h, z.toward_cross]

@[simp] theorem items_gap (z : Zipper α) (f : ListFilter α) : (gap z f).items = z.items := by
  unfold gap
  split <;> simp

/-- A match is held in one of the directions. -/
def IsHolding (f : ListFilter α) : Prop := f.ahead.isSome ∨ f.behind.isSome

theorem held_of_not_holding (hb : ¬ f.IsHolding) (d : Direction) : f.held d = none := by
  simp only [IsHolding, not_or, Option.not_isSome_iff_eq_none] at hb
  cases d
  · exact hb.1
  · exact hb.2

theorem isHolding_of_held {d : Direction} (h : (f.held d).isSome) : f.IsHolding := by
  cases d
  · exact .inl h
  · exact .inr h

/-! ## §3. Looking for a match. -/

variable {b : Bench α (ListFilter α)} {bound fuel : Nat}

theorem length_toward_le (z : Zipper α) (d : Direction) :
    (z.toward d).length ≤ z.items.length := by
  rw [z.length_items]
  cases d <;> simp [Zipper.toward]

/-- Looking in a direction only moves the cursor in that direction, and does move it if a match
was held. -/
theorem Sound.cross_passed (hs : Sound verdict z f) {d : Direction} (hd : f.held d = none) :
    ∃ n, (gap z f).cross d (passed verdict ((gap z f).toward d)) = z.cross d n
      ∧ n ≤ (z.toward d).length ∧ (n = 0 → ¬ f.IsHolding) := by
  have hle := passed_le_length verdict ((gap z f).toward d)
  match hopp : f.held d.opposite with
  | none =>
      have hfree : ∀ e, f.held e = none := by
        intro e
        cases d <;> cases e <;> assumption
      rw [gap_of_free hfree] at hle ⊢
      refine ⟨_, rfl, hle, fun _ hholding => ?_⟩
      rcases hholding with ha | hb
      · rw [show f.ahead = none from hfree .forward] at ha
        exact absurd ha (by simp)
      · rw [show f.behind = none from hfree .backward] at hb
        exact absurd hb (by simp)
  | some m =>
      -- The gap lies one element ahead of the cursor, which has to cross that one as well.
      obtain ⟨-, -, rest, hrest⟩ := hs.near d.opposite m hopp
      have hgap := hs.gap_of_held (d := d.opposite) (by simp [hopp])
      rw [Direction.opposite_opposite] at hrest hgap
      rw [hgap, z.toward_cross, List.length_drop, hrest, List.length_cons] at hle
      rw [hgap, z.cross_cross, z.toward_cross, hrest]
      refine ⟨_, rfl, ?_, by omega⟩
      rw [List.length_cons]
      omega

/-- Looking in a direction looks along the elements before the gap of the filter. -/
theorem seek_apply (h : b.Shows bound z) (hs : Sound verdict z b.top)
    (hfuel : z.items.length < fuel) {d : Direction} (hd : b.top.held d = none) :
    ∃ b', seek fuel Bench.self Bench.source (judge verdict) d b
        = .of (look verdict ((gap z b.top).toward d)) b'
      ∧ b'.Shows bound
          ((gap z b.top).cross d (passed verdict ((gap z b.top).toward d)))
      ∧ b'.top = b.top.hold d.opposite none := by
  have hlen : ∀ {z' : Zipper α}, z'.items = z.items → (z'.toward d).length < fuel := by
    intro z' hz'
    have := length_toward_le z' d
    rw [hz'] at this
    omega
  rw [seek_eq]
  match hopp : b.top.held d.opposite with
  | none =>
      have hfree : ∀ e, b.top.held e = none := by
        intro e
        cases d <;> cases e <;> assumption
      obtain ⟨b', hsearch, h', htop⟩ := Bench.search_apply verdict h d (hlen rfl)
      rw [gap_of_free hfree]
      refine ⟨b', ?_, h', by rw [htop, hold_of_held hopp]⟩
      simp only [Act.bind_apply, Field.read_apply, Bench.self_get, hopp]
      exact hsearch
  | some m =>
      -- The match held on the other side is found again first.
      have hgap : gap z b.top = z.cross d 1 := by
        rw [hs.gap_of_held (d := d.opposite) (by simp [hopp]), Direction.opposite_opposite]
      obtain ⟨hm, -, rest, hrest⟩ := hs.near d.opposite m hopp
      rw [Direction.opposite_opposite] at hrest
      let b₀ : Bench α (ListFilter α) := { b with top := b.top.hold d.opposite none }
      have h₀ : b₀.Shows bound z := h.withTop _
      obtain ⟨b₁, hsearch₁, h₁, htop₁⟩ := Bench.search_apply verdict h₀ d (hlen rfl)
      rw [hrest, look_cons_of_match hm] at hsearch₁
      rw [hrest, passed_cons_of_match hm] at h₁
      have htop₁' : b₁.top.hold d none = b.top.hold d.opposite none := by
        rw [htop₁]
        exact hold_of_held (by simp [b₀, hd])
      have h₁' : Bench.Shows { b₁ with top := b₁.top.hold d none } bound (z.cross d 1) :=
        h₁.withTop _
      obtain ⟨b₂, hsearch₂, h₂, htop₂⟩ :=
        Bench.search_apply verdict h₁' d (hlen (z.items_cross d 1))
      rw [hgap]
      refine ⟨b₂, ?_, h₂, htop₂.trans htop₁'⟩
      simp only [Act.bind_apply, Field.read_apply, Field.modify_apply, Bench.self_get,
        Bench.self_set, hopp, Option.isSome_some, if_true]
      rw [show Filter.search (Bench.source.hasMore d) (Bench.source.step d) (judge verdict) fuel
          { b with top := b.top.hold d.opposite none } = .value (some m) b₁ from hsearch₁]
      exact hsearch₂

/-! ## §4. The moves. -/

/-- A two-way filter at work on a bench. -/
def onBench (fuel : Nat) (verdict : α → Except Failure Bool) :
    TwoWay (Bench α (ListFilter α)) α :=
  twoWay fuel Bench.self Bench.source (judge verdict)

theorem hasMore_of_held {d : Direction} (hd : (b.top.held d).isSome) :
    (onBench fuel verdict).hasMore d b = .value true b := by
  simp only [onBench, hasMore_eq, Act.bind_apply, Field.read_apply, Bench.self_get, hd, if_true]
  rfl

theorem step_of_held {d : Direction} {x : α} (hd : b.top.held d = some x) :
    (onBench fuel verdict).step d b = .value x { b with top := b.top.counted d } := by
  simp only [onBench, step_eq, Act.bind_apply, Field.read_apply, Bench.self_get, hd]
  rfl

theorem hasMore_of_seek {d : Direction} {seen : Except Failure (Option α)}
    {b₁ : Bench α (ListFilter α)} (hd : b.top.held d = none) (hd₁ : b₁.top.held d = none)
    (hseek : seek fuel Bench.self Bench.source (judge verdict) d b = .of seen b₁) :
    (onBench fuel verdict).hasMore d b
      = .of (seen.map Option.isSome) { b₁ with top := b₁.top.hold d (sighted seen) } := by
  -- To hold nothing where nothing is held changes nothing.
  have hnone : ({ b₁ with top := b₁.top.hold d none } : Bench α (ListFilter α)) = b₁ := by
    rw [hold_of_held hd₁]
  simp only [onBench, hasMore_eq, Act.bind_apply, Field.read_apply, Bench.self_get, hd,
    Option.isSome_none, Bool.false_eq_true, if_false, hseek]
  rcases seen with e | (_ | x)
  · simp only [sighted, hnone]
    rfl
  · simp only [sighted, hnone]
    rfl
  · rfl

theorem step_of_seek {d : Direction} {seen : Except Failure (Option α)}
    {b₁ : Bench α (ListFilter α)} (hd : b.top.held d = none)
    (hseek : seek fuel Bench.self Bench.source (judge verdict) d b = .of seen b₁) :
    (onBench fuel verdict).step d b
      = .of (taken seen)
          (if (sighted seen).isSome then { b₁ with top := b₁.top.counted d } else b₁) := by
  simp only [onBench, step_eq, Act.bind_apply, Field.read_apply, Bench.self_get, hd, hseek]
  rcases seen with e | (_ | x)
  · rfl
  · rfl
  · rfl

/-- The question for a match looks for one and holds it. -/
theorem hasMore_of_not_held (h : b.Shows bound z) (hs : Sound verdict z b.top)
    (hfuel : z.items.length < fuel) {d : Direction} (hd : b.top.held d = none) :
    ∃ b', (onBench fuel verdict).hasMore d b
        = .of ((look verdict ((gap z b.top).toward d)).map Option.isSome) b'
      ∧ b'.Shows bound ((gap z b.top).cross d (passed verdict ((gap z b.top).toward d)))
      ∧ b'.top = (b.top.hold d.opposite none).hold d
          (sighted (look verdict ((gap z b.top).toward d))) := by
  obtain ⟨b₁, hseek, h₁, htop₁⟩ := seek_apply h hs hfuel hd
  refine ⟨_, hasMore_of_seek hd (by rw [htop₁]; simp [hd]) hseek, h₁.withTop _, ?_⟩
  rw [htop₁]

/-- A move looks for a match and crosses it. -/
theorem step_of_not_held (h : b.Shows bound z) (hs : Sound verdict z b.top)
    (hfuel : z.items.length < fuel) {d : Direction} (hd : b.top.held d = none) :
    ∃ b', (onBench fuel verdict).step d b
        = .of (taken (look verdict ((gap z b.top).toward d))) b'
      ∧ b'.Shows bound ((gap z b.top).cross d (passed verdict ((gap z b.top).toward d)))
      ∧ b'.top = if (sighted (look verdict ((gap z b.top).toward d))).isSome
          then (b.top.hold d.opposite none).counted d else b.top.hold d.opposite none := by
  obtain ⟨b₁, hseek, h₁, htop₁⟩ := seek_apply h hs hfuel hd
  refine ⟨_, step_of_seek hd hseek, ?_, ?_⟩
  · split
    · exact h₁.withTop _
    · exact h₁
  · split
    · rw [← htop₁]
    · exact htop₁

/-! ## §5. The edits. -/

theorem checkGap_of_holding (hb : b.top.IsHolding) (edit : Edit) :
    checkGap Bench.self edit b = .failure (.heldAhead edit true) b := by
  have hheld : (b.top.ahead.isSome || b.top.behind.isSome) = true := by
    rw [Bool.or_eq_true]
    exact hb
  simp only [checkGap, Act.bind_apply, Field.read_apply, Bench.self_get, hheld, if_true,
    Act.fail_apply]

theorem checkGap_of_not_holding (hb : ¬ b.top.IsHolding) (edit : Edit) :
    checkGap Bench.self edit b = .value () b := by
  have ha : b.top.ahead = none := held_of_not_holding hb .forward
  have hbehind : b.top.behind = none := held_of_not_holding hb .backward
  simp only [checkGap, Act.bind_apply, Field.read_apply, Bench.self_get, ha, hbehind]
  rfl

theorem remove_of_holding (hb : b.top.IsHolding) :
    (onBench fuel verdict).remove b = .failure (.heldAhead .remove true) b := by
  simp only [onBench, twoWay, remove, Act.bind_apply, checkGap_of_holding hb]

theorem set_of_holding (hb : b.top.IsHolding) (x : α) :
    (onBench fuel verdict).set x b = .failure (.heldAhead .set true) b := by
  simp only [onBench, twoWay, set, Act.bind_apply, checkGap_of_holding hb]

theorem add_of_holding (hb : b.top.IsHolding) (x : α) :
    (onBench fuel verdict).add x b = .failure (.heldAhead .add true) b := by
  simp only [onBench, twoWay, add, Act.bind_apply, checkGap_of_holding hb]

theorem remove_of_not_moved (hb : ¬ b.top.IsHolding) (hm : b.top.moved = none) :
    (onBench fuel verdict).remove b = .failure (.notMoved .remove true) b := by
  simp only [onBench, twoWay, remove, Act.bind_apply, checkGap_of_not_holding hb,
    Field.read_apply, Bench.self_get, hm, Act.fail_apply]

theorem remove_of_untouched (hb : ¬ b.top.IsHolding) (h : b.Shows bound z)
    (hz : z.touched = none) :
    (onBench fuel verdict).remove b = .failure (.notMoved .remove true) b := by
  cases hm : b.top.moved with
  | none => exact remove_of_not_moved hb hm
  | some m =>
      simp only [onBench, twoWay, remove, Act.bind_apply, checkGap_of_not_holding hb,
        Field.read_apply, Bench.self_get, hm, Bench.remove_of_untouched h hz]

/-- The filter after a removal below it of a match crossed in direction `m`. -/
def dropped (f : ListFilter α) (m : Direction) : ListFilter α :=
  { f with index := if m = .forward then f.index - 1 else f.index, moved := none }

/-- The filter after an insertion below it; the predicate may fail on the new element. -/
def added (verdict : α → Except Failure Bool) (f : ListFilter α) (x : α) : ListFilter α :=
  match verdict x with
  | .ok true => { f with index := f.index + 1, moved := none }
  | .ok false => { f with moved := none }
  | .error _ => f

@[simp] theorem held_dropped (f : ListFilter α) (m d : Direction) :
    (f.dropped m).held d = f.held d := by
  cases d <;> rfl

@[simp] theorem held_added (f : ListFilter α) (x : α) (d : Direction) :
    (f.added verdict x).held d = f.held d := by
  unfold added
  split <;> cases d <;> rfl

theorem moved_added_of_ok {accepted : Bool} {x : α} (hx : verdict x = .ok accepted) :
    (f.added verdict x).moved = none := by
  unfold added
  rw [hx]
  cases accepted <;> rfl

theorem added_of_error {e : Failure} {x : α} (hx : verdict x = .error e) :
    f.added verdict x = f := by
  unfold added
  rw [hx]

/-- Without a match held, a removal after a move is passed on to the cursor. -/
theorem remove_of_touched (fuel : Nat) (verdict : α → Except Failure Bool)
    (hb : ¬ b.top.IsHolding) {m : Direction} (hm : b.top.moved = some m)
    (h : b.Shows bound z) {i : Nat} (hi : z.touched = some i) :
    ∃ b', (onBench fuel verdict).remove b = .value () b' ∧ b'.Shows bound z.removed
      ∧ b'.top = b.top.dropped m := by
  obtain ⟨b₁, hremove, h₁, htop₁⟩ := Bench.remove_of_touched h hi
  refine ⟨{ b₁ with top := b.top.dropped m }, ?_, h₁.withTop _, rfl⟩
  unfold dropped
  simp only [onBench, twoWay, remove, Act.bind_apply, checkGap_of_not_holding hb,
    Field.read_apply, Bench.self_get, hm, hremove, Field.modify_apply, htop₁, Bench.self_set,
    Option.some.injEq]

/-- Without a match held, a replacement is passed on to the cursor. -/
theorem set_of_not_holding (hb : ¬ b.top.IsHolding) (x : α) :
    (onBench fuel verdict).set x b = Bench.source.set x b := by
  simp only [onBench, twoWay, set, Act.bind_apply, checkGap_of_not_holding hb]

/-- Without a match held, an insertion is passed on to the cursor, and then the predicate is
called on the new element. -/
theorem ask_add_of_not_holding (fuel : Nat) (verdict : α → Except Failure Bool)
    (hb : ¬ b.top.IsHolding) (h : b.Shows bound z)
    (hroom : z.items.length < bound) (x : α) :
    ∃ b', (Call.add x).ask (onBench fuel verdict) b = .of ((verdict x).map fun _ => .done) b'
      ∧ b'.Shows bound (z.inserted x) ∧ b'.top = b.top.added verdict x := by
  obtain ⟨b₁, hadd, h₁, htop₁⟩ := Bench.add_apply h hroom x
  simp only [Call.ask, onBench, twoWay, add, Act.bind_apply, checkGap_of_not_holding hb, hadd,
    judge, Act.ofExcept_apply]
  rw [← htop₁]
  unfold added
  rcases verdict x with e | (_ | _)
  · exact ⟨b₁, rfl, h₁, rfl⟩
  · exact ⟨_, rfl, h₁.withTop _, rfl⟩
  · exact ⟨_, rfl, h₁.withTop _, rfl⟩

end ListFilter

end Cursors
