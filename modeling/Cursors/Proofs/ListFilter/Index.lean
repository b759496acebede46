/-
  Cursors.Proofs.ListFilter.Index
  ───────────────────────────────
  **WHAT THE INDEX OF A TWO-WAY FILTER COUNTS.**

  The index starts at zero, goes up and down with each match crossed, and
  goes up with each match inserted.  So it counts the matches before the gap
  of the filter, but for two kinds that it never hears of:

      matches that lay before the gap at the start
      elements before the gap that a replacement made, or made no, matches

  `fallBehind` keeps their number beside a run.  Main result
  (`index_counts_matches`): after every call the index is short of the
  matches before the gap by exactly this number, whereas `hasPrevious` goes
  by the matches themselves.
-/
import Cursors.Proofs.After
import Cursors.Proofs.Ledger
import Cursors.Proofs.ListFilter.Navigation

namespace Cursors

namespace ListFilter

variable {α : Type}

/-! ## §1. Matches before the gap. -/

/-- The predicate that comes to a truth value on every element. -/
def sure (accepts : α → Bool) (x : α) : Except Failure Bool := .ok (accepts x)

/-- The number of elements before the gap of the filter; to find a match that is held the cursor
went one further. -/
def place (b : Bench α (ListFilter α)) : Int :=
  b.cursor.position.toInt - (if b.top.ahead.isSome then 1 else 0)
    + (if b.top.behind.isSome then 1 else 0)

/-- The number of matches before the gap of the filter. -/
def matchesBehind (accepts : α → Bool) (b : Bench α (ListFilter α)) : Nat :=
  (b.items.take (place b).toNat).countP accepts

/-- What an element adds to the number of matches. -/
def weight (accepts : α → Bool) (x : α) : Int := if accepts x then 1 else 0

/-- How far the index has fallen behind after a call: by a replacement before the gap one element
counts in place of another, and the index does not follow. -/
def fallBehind (accepts : α → Bool) (missed : Int) (call : Call α) (b : Bench α (ListFilter α))
    (r : Except Failure (Answer α)) (_ : Bench α (ListFilter α)) : Int :=
  match call, r, b.cursor.touched with
  | .set x, .ok _, some i =>
      if (i : Int) < place b then
        missed + weight accepts x - (b.items[i]?.map (weight accepts)).getD 0
      else missed
  | _, _, _ => missed

/-- The indexes are short of the matches before the gap by `missed`; whether there is a match
before the gap is told correctly. -/
structure Counts (accepts : α → Bool) (fuel : Nat) (missed : Int) (b : Bench α (ListFilter α)) :
    Prop where
  nextIndex : (onBench fuel (sure accepts)).nextIndex b
    = .value (matchesBehind accepts b - missed) b
  previousIndex : (onBench fuel (sure accepts)).previousIndex b
    = .value (matchesBehind accepts b - missed - 1) b
  hasPrevious : ∃ b', Call.hasPrevious.ask (onBench fuel (sure accepts)) b
    = .value (.truth (decide (0 < matchesBehind accepts b))) b'

section

variable {accepts : α → Bool} {bound fuel : Nat} {b b' : Bench α (ListFilter α)} {z : Zipper α}
  {g : Stand α} {verdict : α → Except Failure Bool}

/-- The gap of the filter is where `place` says. -/
theorem place_eq (hb : b.Shows bound z) (hs : Sound verdict z b.top) :
    place b = (gap z b.top).back.length := by
  have hpos := hb.spans.position.toInt_eq
  unfold place
  rw [hpos]
  cases hahead : b.top.ahead with
  | some x =>
      have hheld : b.top.held .forward = some x := hahead
      obtain ⟨-, -, rest, hrest⟩ := hs.near .forward x hheld
      have hback : z.back = x :: rest := hrest
      have hbehind : b.top.behind = none := hs.single .forward (by rw [hheld]; rfl)
      rw [hs.gap_of_held (d := .forward) (by rw [hheld]; rfl), hbehind]
      simp [Zipper.cross, Direction.opposite, hback]
  | none =>
      cases hbehind : b.top.behind with
      | some x =>
          have hheld : b.top.held .backward = some x := hbehind
          obtain ⟨-, -, rest, hrest⟩ := hs.near .backward x hheld
          have hfront : z.front = x :: rest := hrest
          rw [hs.gap_of_held (d := .backward) (by rw [hheld]; rfl)]
          simp [Zipper.cross, Direction.opposite, hfront]
      | none =>
          rw [gap_of_free (fun d => by cases d <;> assumption)]
          simp

/-- The matches before the gap are those behind the stand. -/
theorem Agrees.matchesBehind_eq (h : Agrees (sure accepts) bound b g) :
    matchesBehind accepts b = (g.matched (sure accepts) .backward).length := by
  obtain ⟨z, hb, hz⟩ := h
  have htake : b.items.take (place b).toNat = (gap z b.top).back.reverse := by
    rw [place_eq hb hz.sound, Int.toNat_natCast, hb.items_eq, ← items_gap z b.top, Zipper.items,
      ← List.length_reverse, List.take_left]
  rw [matchesBehind, htake, List.countP_reverse, List.countP_eq_length_filter, hz.matched_eq]
  rfl

/-- A predicate that does not fail does not fail in any call. -/
theorem failing_sure (g : Stand α) (d : Direction) : g.failing (sure accepts) d = none := by
  unfold Stand.failing
  split
  · rfl
  · obtain ⟨-, x, -, -, -, -, hlook, -⟩ | ⟨-, hlook, -⟩ | ⟨-, x, -, e, -, -, hx, -, -⟩ :=
      look_cases (sure accepts) (g.toward d)
    · rw [hlook]
    · rw [hlook]
    · exact nomatch hx

/-! ## §2. The index. -/

@[simp] theorem index_hold (f : ListFilter α) (d : Direction) (x : Option α) :
    (f.hold d x).index = f.index := by
  cases d <;> rfl

/-- By how much a move in a direction changes the index. -/
def gained (d : Direction) (r : Except Failure (Answer α)) : Int :=
  match d, r with
  | _, .error _ => 0
  | .forward, .ok _ => 1
  | .backward, .ok _ => -1

theorem index_counted (f : ListFilter α) (d : Direction) (x : Answer α) :
    (f.counted d).index = f.index + gained d (.ok x) := by
  cases d <;> rfl

theorem gained_error (d : Direction) (e : Failure) :
    gained d (.error e : Except Failure (Answer α)) = 0 := by
  cases d <;> rfl

/-- A move that returns a match counts it, and any other leaves the index alone. -/
theorem index_of_step (hb : b.Shows bound z) (hs : Sound verdict z b.top)
    (hfuel : z.items.length < fuel) {d : Direction} {r : Except Failure (Answer α)}
    (hask : (Call.step d).ask (onBench fuel verdict) b = .of r b') :
    b'.top.index = b.top.index + gained d r := by
  cases hd : b.top.held d with
  | some x =>
      have hstep : (onBench fuel verdict).step d b
          = .of (.ok x) { b with top := b.top.counted d } := step_of_held hd
      obtain ⟨rfl, rfl⟩ := Outcome.of_inj (hask.symm.trans (Call.ask_step_of hstep))
      exact index_counted b.top d (.element x)
  | none =>
      obtain ⟨b₁, hstep, -, htop⟩ := step_of_not_held hb hs hfuel hd
      obtain ⟨rfl, rfl⟩ := Outcome.of_inj (hask.symm.trans (Call.ask_step_of hstep))
      rw [htop]
      rcases look verdict ((gap z b.top).toward d) with e | (_ | x)
      · exact (index_hold _ _ _).trans (by simp [taken, Except.map, gained_error])
      · exact (index_hold _ _ _).trans (by simp [taken, Except.map, gained_error])
      · exact (index_counted _ d (.element x)).trans (by rw [index_hold]; rfl)

theorem index_of_hasMore (hb : b.Shows bound z) (hs : Sound verdict z b.top)
    (hfuel : z.items.length < fuel) {d : Direction} {r : Except Failure (Answer α)}
    (hask : (Call.hasMore d).ask (onBench fuel verdict) b = .of r b') :
    b'.top.index = b.top.index := by
  cases hd : b.top.held d with
  | some x =>
      have hmore : (onBench fuel verdict).hasMore d b = .of (.ok true) b :=
        hasMore_of_held (by rw [hd]; rfl)
      obtain ⟨-, rfl⟩ := Outcome.of_inj (hask.symm.trans (Call.ask_hasMore_of hmore))
      rfl
  | none =>
      obtain ⟨b₁, hmore, -, htop⟩ := hasMore_of_not_held hb hs hfuel hd
      obtain ⟨-, rfl⟩ := Outcome.of_inj (hask.symm.trans (Call.ask_hasMore_of hmore))
      rw [htop, index_hold, index_hold]

/-! ## §3. One call. -/

/-- The index and the matches behind the stand differ by `missed`. -/
structure Tallies (accepts : α → Bool) (bound : Nat) (missed : Int)
    (b : Bench α (ListFilter α)) (g : Stand α) : Prop where
  agrees : Agrees (sure accepts) bound b g
  index_eq : b.top.index + missed = (g.matched (sure accepts) .backward).length

variable {missed : Int}

theorem Tallies.counts (h : Tallies accepts bound missed b g) (hfuel : b.items.length < fuel) :
    Counts accepts fuel missed b := by
  have hindex : b.top.index = matchesBehind accepts b - missed := by
    have heq := h.index_eq
    rw [← h.agrees.matchesBehind_eq] at heq
    omega
  refine ⟨?_, ?_, ?_⟩
  · show Outcome.value b.top.index b = _
    rw [hindex]
  · show Outcome.value (b.top.index - 1) b = _
    rw [hindex]
  · obtain ⟨r, b', g', hask, hfinds, -⟩ := h.agrees.finds hfuel .backward
    have hanswer := hfinds.answer
    rw [failing_sure] at hanswer
    have hbehind : (!(g.matched (sure accepts) .backward).isEmpty)
        = decide (0 < matchesBehind accepts b) := by
      rw [h.agrees.matchesBehind_eq]
      cases g.matched (sure accepts) .backward <;> simp
    rw [hanswer.1, hbehind] at hask
    exact ⟨b', hask⟩

/-- A call comes to something and keeps the tally. -/
def Keeps (accepts : α → Bool) (bound fuel : Nat) (missed : Int) (b : Bench α (ListFilter α))
    (call : Call α) : Prop :=
  ∃ r b', call.ask (onBench fuel (sure accepts)) b = .of r b'
    ∧ b'.items.length ≤ b.items.length + 1
    ∧ ∃ g', Tallies accepts bound (fallBehind accepts missed call b r b') b' g'

/-- A match that is crossed goes from one side to the other, and is counted. -/
theorem Tallies.step (h : Tallies accepts bound missed b g) (hfuel : b.items.length < fuel)
    (d : Direction) : Keeps accepts bound fuel missed b (Call.step d) := by
  obtain ⟨r, b', g', hask, hmoves, hagrees⟩ := h.agrees.moves hfuel d
  have hindex : b'.top.index = b.top.index + gained d r := by
    obtain ⟨z, hb, hz⟩ := h.agrees
    rw [hb.items_eq] at hfuel
    exact index_of_step hb hz.sound hfuel hask
  have hitems : b'.items = b.items := by
    rw [hagrees.items_eq, hmoves.items_eq, h.agrees.items_eq]
  have hmissed : fallBehind accepts missed (Call.step d) b r b' = missed := by
    cases d <;> rfl
  refine ⟨r, b', hask, by rw [hitems]; omega, g', ?_⟩
  rw [hmissed]
  refine ⟨hagrees, ?_⟩
  have heq := h.index_eq
  have hanswer := hmoves.answer
  rw [failing_sure] at hanswer
  rw [hindex]
  cases hmatched : g.matched (sure accepts) d with
  | nil =>
      rw [hmatched] at hanswer
      obtain ⟨rfl, hstill, -⟩ := hanswer
      rw [gained_error, hstill.matched_eq]
      omega
  | cons x rest =>
      rw [hmatched] at hanswer
      obtain ⟨rfl, -, -, hahead, hbehind⟩ := hanswer
      cases d with
      | forward =>
          have hback : g'.matched (sure accepts) .backward
              = x :: g.matched (sure accepts) .backward := hbehind
          rw [hback, List.length_cons]
          simp only [gained]
          omega
      | backward =>
          rw [hmatched, List.length_cons] at heq
          rw [hahead]
          simp only [gained]
          omega

theorem Tallies.hasMore (h : Tallies accepts bound missed b g) (hfuel : b.items.length < fuel)
    (d : Direction) : Keeps accepts bound fuel missed b (Call.hasMore d) := by
  obtain ⟨r, b', g', hask, hfinds, hagrees⟩ := h.agrees.finds hfuel d
  have hindex : b'.top.index = b.top.index := by
    obtain ⟨z, hb, hz⟩ := h.agrees
    rw [hb.items_eq] at hfuel
    exact index_of_hasMore hb hz.sound hfuel hask
  have hitems : b'.items = b.items := by
    rw [hagrees.items_eq, hfinds.still.items_eq, h.agrees.items_eq]
  have hmissed : fallBehind accepts missed (Call.hasMore d) b r b' = missed := by
    cases d <;> rfl
  refine ⟨r, b', hask, by rw [hitems]; omega, g', ?_⟩
  rw [hmissed]
  refine ⟨hagrees, ?_⟩
  rw [hindex, hfinds.still.matched_eq]
  exact h.index_eq

/-- A call that is refused changes nothing. -/
theorem Tallies.refused (h : Tallies accepts bound missed b g) {call : Call α} {e : Failure}
    (hask : call.ask (onBench fuel (sure accepts)) b = .of (.error e) b) :
    Keeps accepts bound fuel missed b call := by
  have hmissed : fallBehind accepts missed call b (.error e) b = missed := by
    cases call <;> rfl
  refine ⟨.error e, b, hask, Nat.le_succ _, g, ?_⟩
  rw [hmissed]
  exact h

/-- With nothing held, the matches behind the stand are those behind the cursor. -/
theorem Tallies.index_of_free (h : Tallies accepts bound missed b g)
    (hholding : ¬ b.top.IsHolding) (hz : Simulates (sure accepts) z b.top g) :
    b.top.index + missed = (z.back.countP accepts : Int) := by
  rw [h.index_eq, hz.matched_eq, gap_of_free (held_of_not_holding hholding),
    List.countP_eq_length_filter]
  rfl

/-- With nothing held after the call, it is enough to count the matches behind the cursor. -/
theorem tallies_of_free (hb : b.Shows bound z) (hfree : ∀ d, b.top.held d = none)
    (hindex : b.top.index + missed = (z.back.countP accepts : Int)) :
    Tallies accepts bound missed b (.free z.settled) where
  agrees := ⟨z, hb, .of_free_settled hfree⟩
  index_eq := by
    rw [hindex, List.countP_eq_length_filter]
    rfl

/-- An element that is inserted lies before the gap, and is counted if it matches. -/
theorem Tallies.add (h : Tallies accepts bound missed b g) (hroom : b.items.length < bound)
    (x : α) : Keeps accepts bound fuel missed b (.add x) := by
  obtain ⟨z, hb, hz⟩ := h.agrees
  by_cases hholding : b.top.IsHolding
  · exact h.refused (Call.ask_add_of (r := .error _) (add_of_holding hholding x))
  · rw [hb.items_eq] at hroom
    obtain ⟨b', hask, hb', htop⟩ :=
      ask_add_of_not_holding fuel (sure accepts) hholding hb hroom x
    have hlen : b'.items.length = b.items.length + 1 := by
      rw [hb'.items_eq, z.length_inserted, hb.items_eq]
    have hfree : ∀ d, b'.top.held d = none := by
      intro d
      rw [htop, held_added, held_of_not_holding hholding]
    have hindex := h.index_of_free hholding hz
    refine ⟨_, b', hask, Nat.le_of_eq hlen, _, tallies_of_free hb' hfree ?_⟩
    show b'.top.index + missed = ((x :: z.back).countP accepts : Int)
    rw [htop, List.countP_cons]
    cases haccepts : accepts x with
    | true =>
        simp only [added, sure, haccepts, if_true]
        omega
    | false =>
        simp only [added, sure, haccepts, Bool.false_eq_true, if_false]
        omega

/-- What a replacement adds to the matches behind the cursor. -/
theorem countP_back_replaced {i : Nat} (hi : z.touched = some i) (x : α) :
    ((z.replaced x).back.countP accepts : Int)
      = if i < z.back.length then
          z.back.countP accepts + weight accepts x - (z.items[i]?.map (weight accepts)).getD 0
        else z.back.countP accepts := by
  obtain ⟨y, back, front, rfl, rfl⟩ | ⟨y, back, front, rfl, rfl⟩ := Zipper.touched_cases hi
  · have hy : (Zipper.mk (y :: back) front (some .forward)).items[back.length]? = some y := by
      simp [Zipper.items]
    rw [hy]
    simp only [Zipper.replaced, List.set_cons_zero, List.countP_cons, List.length_cons,
      Nat.lt_succ_self, if_true, Option.map_some, Option.getD_some, weight]
    split <;> split <;> omega
  · simp [Zipper.replaced]

/-- A replacement is refused, or exchanges the element that the cursor crossed last. -/
theorem Tallies.set (h : Tallies accepts bound missed b g) (x : α) :
    Keeps accepts bound fuel missed b (.set x) := by
  obtain ⟨z, hb, hz⟩ := h.agrees
  by_cases hholding : b.top.IsHolding
  · exact h.refused (Call.ask_set_of (r := .error _) (set_of_holding hholding x))
  · have hset : (onBench fuel (sure accepts)).set x b = Bench.source.set x b :=
      set_of_not_holding hholding x
    cases htouched : z.touched with
    | none =>
        exact h.refused (Call.ask_set_of (r := .error (.notMoved .set true))
          (hset.trans (Bench.set_of_untouched hb htouched x)))
    | some i =>
        obtain ⟨b', hdone, hb', htop⟩ := Bench.set_of_touched hb htouched x
        have hlen : b'.items.length = b.items.length := by
          rw [hb'.items_eq, z.length_replaced, hb.items_eq]
        have hfree : ∀ d, b'.top.held d = none := by
          intro d
          rw [htop, held_of_not_holding hholding]
        have hplace : place b = z.back.length := by
          rw [place_eq hb hz.sound, gap_of_free (held_of_not_holding hholding)]
        have hmissed : fallBehind accepts missed (.set x) b (.ok .done) b'
            = if i < z.back.length then
                missed + weight accepts x - (z.items[i]?.map (weight accepts)).getD 0
              else missed := by
          simp only [fallBehind, hb.spans.touched_eq, htouched, hplace, hb.items_eq,
            Int.ofNat_lt]
        have hindex := h.index_of_free hholding hz
        refine ⟨.ok .done, b', Call.ask_set_of (r := .ok ()) (hset.trans hdone), by omega, _,
          tallies_of_free hb' hfree ?_⟩
        rw [htop, hmissed, countP_back_replaced htouched x]
        split <;> omega

/-! ## §4. Every run. -/

theorem Tallies.keeps (h : Tallies accepts bound missed b g) (hroom : b.items.length < bound)
    (hfuel : b.items.length < fuel) {call : Call α} (hcall : call ≠ .remove) :
    Keeps accepts bound fuel missed b call := by
  cases call with
  | next => exact h.step hfuel .forward
  | previous => exact h.step hfuel .backward
  | hasNext => exact h.hasMore hfuel .forward
  | hasPrevious => exact h.hasMore hfuel .backward
  | add x => exact h.add hroom x
  | set x => exact h.set x
  | remove => exact absurd rfl hcall

end

/-- A new filter has counted none of the matches before its start. -/
theorem tallies_ofList (accepts : α → Bool) {xs : List α} {start : Place} {n bound : Nat}
    (hstart : start.StandsAt n bound) (hn : n ≤ xs.length) (hxs : xs.length ≤ bound) :
    Tallies accepts bound ((xs.take n).countP accepts)
      { items := xs, cursor := { position := start }, top := {} } (.free (.ofList xs n)) where
  agrees := agrees_ofList hstart hn hxs
  index_eq := by
    have hback : (Stand.free (Zipper.ofList xs n)).matched (sure accepts) .backward
        = (xs.take n).reverse.filter accepts := rfl
    rw [hback, ← List.countP_eq_length_filter, List.countP_reverse]
    exact Int.zero_add _

/-- **What the index counts.**  Along every run of moves, questions, replacements and insertions,
for every predicate that does not fail, the index is the number of matches before the gap, less
those that lay there at the start and less what replacements before the gap have made of their
number; `hasPrevious` tells whether that number, with none taken off, is positive.  The start may be
any that stands at `n`; of a fixed width, it has to hold the number of elements that there can be. -/
theorem index_counts_matches (accepts : α → Bool) (xs : List α) {start : Place} {n fuel : Nat}
    (calls : List (Call α)) (hcalls : Call.remove ∉ calls) (hn : n ≤ xs.length)
    (hstart : start.StandsAt n (xs.length + calls.length))
    (hfuel : xs.length + calls.length < fuel) :
    Counts accepts fuel ((xs.take n).countP accepts)
        { items := xs, cursor := { position := start }, top := {} }
      ∧ Throughout (Call.ask (onBench fuel (sure accepts))) (fallBehind accepts)
        (fun missed call b r b' => Counts accepts fuel (fallBehind accepts missed call b r b') b')
        calls ((xs.take n).countP accepts)
        { items := xs, cursor := { position := start }, top := {} } := by
  have hnew := tallies_ofList accepts hstart hn (Nat.le_add_right _ _)
  constructor
  · exact hnew.counts (Nat.lt_of_le_of_lt (Nat.le_add_right _ _) hfuel)
  · -- Each call inserts at most one element, so that room and fuel last for all of them.
    refine throughout_of_invariant
      (fun k missed b => (∃ g, Tallies accepts (xs.length + calls.length) missed b g)
        ∧ b.items.length + k ≤ xs.length + calls.length)
      ?_ ⟨⟨_, hnew⟩, Nat.le_refl _⟩
    rintro k missed b call hmem ⟨⟨g, hg⟩, hroom⟩
    have hcall : call ≠ .remove := by
      rintro rfl
      exact hcalls hmem
    have hlong : b.items.length < fuel := by omega
    obtain ⟨r, b', hask, hlen, g', hg'⟩ := hg.keeps (by omega) hlong hcall
    exact ⟨r, b', hask, hg'.counts (by omega), ⟨g', hg'⟩, by omega⟩

/-- A run from behind a match with a replacement of the match crossed, an insertion that matches,
and turns at a held match. -/
theorem index_counts_matches_even :
    Call.remove ∉ ([.next, .set 1, .hasNext, .hasPrevious, .previous, .add 6] : List (Call Nat))
      ∧ 1 ≤ [2, 4, 8].length
      ∧ (Place.plain 1).StandsAt 1 9
      ∧ Counts (· % 2 == 0) 10 1 { items := [2, 4, 8], cursor := { position := .plain 1 }, top := {} }
      ∧ Throughout (Call.ask (onBench 10 (sure (· % 2 == 0)))) (fallBehind (· % 2 == 0))
        (fun missed call b r b' =>
          Counts (· % 2 == 0) 10 (fallBehind (· % 2 == 0) missed call b r b') b')
        [.next, .set 1, .hasNext, .hasPrevious, .previous, .add 6] 1
        { items := [2, 4, 8], cursor := { position := .plain 1 }, top := {} } := by
  have hcalls : Call.remove ∉
      ([.next, .set 1, .hasNext, .hasPrevious, .previous, .add 6] : List (Call Nat)) := by decide
  have hn : 1 ≤ [2, 4, 8].length := by decide
  have hstart : (Place.plain 1).StandsAt 1 9 := Place.standsAt_plain (by decide)
  exact ⟨hcalls, hn, hstart,
    index_counts_matches (· % 2 == 0) [2, 4, 8] _ hcalls hn hstart (by decide)⟩

/-- The index does not always count the matches before the gap: not after the one match was crossed
and replaced by `1`, and not from behind `2` on. -/
theorem index_not_always_exact :
    (¬ Throughout (Call.ask (onBench 4 (sure (· % 2 == 0)))) (fun _ _ _ _ _ => ())
        (fun _ _ _ _ b' => Counts (· % 2 == 0) 4 0 b') [.next, .set 1] ()
        { items := [2], cursor := { position := .plain 0 }, top := {} })
      ∧ ¬ Counts (· % 2 == 0) 4 0
        { items := [2, 4], cursor := { position := .plain 1 }, top := {} } := by
  constructor
  · rintro ⟨r₁, b₁, h₁, -, r₂, b₂, h₂, hcounts, -⟩
    have hnext : Call.next.ask (onBench 4 (sure (· % 2 == 0))) ⟨[2], {}, {}⟩
        = .of (.ok (.element 2)) ⟨[2], ⟨.plain 1, some (.plain 0)⟩,
            { index := 1, moved := some .forward }⟩ := rfl
    obtain ⟨rfl, rfl⟩ := Outcome.of_inj (hnext.symm.trans h₁)
    have hset : (Call.set 1).ask (onBench 4 (sure (· % 2 == 0)))
          ⟨[2], ⟨.plain 1, some (.plain 0)⟩, { index := 1, moved := some .forward }⟩
        = .of (.ok .done) ⟨[1], ⟨.plain 1, some (.plain 0)⟩,
            { index := 1, moved := some .forward }⟩ := rfl
    obtain ⟨rfl, rfl⟩ := Outcome.of_inj (hset.symm.trans h₂)
    have hindex : (1 : Int) = 0 := (Outcome.value.inj hcounts.nextIndex).1
    exact absurd hindex (by decide)
  · intro hcounts
    have hindex : (0 : Int) = 1 := (Outcome.value.inj hcounts.nextIndex).1
    exact absurd hindex (by decide)

end ListFilter

end Cursors
