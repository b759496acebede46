/-
  Cursors.Proofs.Merge.Account
  ────────────────────────────
  **A MERGE KEEPS ACCOUNT OF EVERY ELEMENT.**

  Plain sources, each behind a look-ahead, are merged under a comparison of
  any kind: it may contradict itself, change its mind from call to call, and
  fail.  On its way an element goes

      out of its source  →  into the look-ahead  →  into the slot  →  out

  one place at a time, and no source has more than one element on the way.
  `Balanced` is the invariant of every single action of the merge, also of
  one that fails half-way; `merge_accounts` follows for every run.
-/
import Mathlib.Logic.Function.Basic
import Cursors.Proofs.Feed
import Cursors.Proofs.Merge.Stable

namespace Cursors

/-! ## §1. Racks. -/

/-- Plain sources with the number of steps that each has taken, a look-ahead over each, a merge
of them, and the state that its comparison keeps. -/
structure Rack (α κ : Type) where
  peek : Nat → Peek α := fun _ => {}
  taken : Nat → Nat := fun _ => 0
  merge : Merge α
  mood : κ

namespace Rack

variable {α κ : Type}

/-- The look-ahead over the `i`-th source. -/
def peekAt (i : Nat) : Field (Rack α κ) (Peek α) where
  get r := r.peek i
  set p r := { r with peek := Function.update r.peek i p }

/-- The number of steps that the `i`-th source has taken. -/
def takenAt (i : Nat) : Field (Rack α κ) Nat where
  get r := r.taken i
  set n r := { r with taken := Function.update r.taken i n }

/-- The merge. -/
def self : Field (Rack α κ) (Merge α) where
  get := Rack.merge
  set m r := { r with merge := m }

/-- The `i`-th source, with look-ahead. -/
def source (steps : Nat → Nat → Except Failure α) (i : Nat) : Forward (Rack α κ) α :=
  Peek.forward "source" (peekAt i) (Feed.pull (steps i) (takenAt i))

/-- The comparison `compare`, which is given its own state and leaves a new one. -/
def weigh (compare : α → α → κ → Except Failure Bool × κ) (x y : α) : Act (Rack α κ) Bool :=
  fun r => .of (compare x y r.mood).1 { r with mood := (compare x y r.mood).2 }

/-- The merge of the first `count` sources. -/
def merged [Inhabited α] (steps : Nat → Nat → Except Failure α)
    (compare : α → α → κ → Except Failure Bool × κ) (count : Nat) : Forward (Rack α κ) α :=
  Merge.forward self ((List.range count).map (source steps)) (weigh compare)

/-- What is held ahead of the `i`-th source, in the slot and in the look-ahead. -/
def held (r : Rack α κ) (i : Nat) : List α :=
  (r.merge.slot i).toList ++ (r.peek i).ahead.toList

/-! ## §2. The invariant. -/

/-- The elements returned so far from each source and those held ahead of it are what the source
has given, and none is held twice over. -/
structure Balanced (steps : Nat → Nat → Except Failure α) (count : Nat)
    (returned : Nat → List α) (r : Rack α κ) : Prop where
  length_slots : r.merge.slots.length = count
  balance : ∀ i, i < count → returned i ++ r.held i = Feed.given (steps i) 0 (r.taken i)
  single : ∀ i, r.merge.slot i = none ∨ (r.peek i).ahead = none

variable {steps : Nat → Nat → Except Failure α} {count i : Nat} {returned : Nat → List α}
  {r : Rack α κ}

/-- The comparison does not touch what is accounted for. -/
theorem Balanced.withMood (h : Balanced steps count returned r) (k : κ) :
    Balanced steps count returned { r with mood := k } :=
  ⟨h.length_slots, h.balance, h.single⟩

/-- The end mark of a look-ahead does not count. -/
theorem Balanced.withPeek (h : Balanced steps count returned r) {p : Peek α}
    (hp : p.ahead = (r.peek i).ahead) :
    Balanced steps count returned { r with peek := Function.update r.peek i p } := by
  have hsame : ∀ j, (Function.update r.peek i p j).ahead = (r.peek j).ahead := by
    intro j
    by_cases hj : j = i
    · subst hj
      rw [Function.update_self, hp]
    · rw [Function.update_of_ne hj]
  refine ⟨h.length_slots, fun j hj => ?_, fun j => ?_⟩
  · show returned j ++ ((r.merge.slot j).toList ++ (Function.update r.peek i p j).ahead.toList) = _
    rw [hsame]
    exact h.balance j hj
  · show _ ∨ (Function.update r.peek i p j).ahead = none
    rw [hsame]
    exact h.single j

/-- A step that fails gives nothing. -/
theorem Balanced.stepped (h : Balanced steps count returned r) {e : Failure}
    (hstep : steps i (r.taken i) = .error e) :
    Balanced steps count returned ((takenAt i).set (r.taken i + 1) r) := by
  refine ⟨h.length_slots, fun j hj => ?_, h.single⟩
  show returned j ++ r.held j = Feed.given (steps j) 0 (Function.update r.taken i _ j)
  by_cases hij : j = i
  · subst hij
    rw [Function.update_self, Feed.given_succ, Nat.zero_add, hstep, h.balance j hj]
    exact (List.append_nil _).symm
  · rw [Function.update_of_ne hij]
    exact h.balance j hj

/-- An element that a source gives is held by its look-ahead. -/
theorem Balanced.produced (h : Balanced steps count returned r)
    (hslot : r.merge.slot i = none) (hfree : (r.peek i).ahead = none) {x : α}
    (hstep : steps i (r.taken i) = .ok x) (p : Peek α) (hp : p.ahead = some x) :
    Balanced steps count returned
      ((peekAt i).set p ((takenAt i).set (r.taken i + 1) r)) := by
  refine ⟨h.length_slots, fun j hj => ?_, fun j => ?_⟩
  · show returned j ++ ((r.merge.slot j).toList ++ (Function.update r.peek i p j).ahead.toList)
      = Feed.given (steps j) 0 (Function.update r.taken i _ j)
    by_cases hij : j = i
    · subst hij
      have hbefore := h.balance j hj
      rw [held, hslot, hfree] at hbefore
      rw [Function.update_self, Function.update_self, Feed.given_succ, Nat.zero_add, hstep, hp,
        ← hbefore, hslot]
      simp [Except.toOption]
    · rw [Function.update_of_ne hij, Function.update_of_ne hij]
      exact h.balance j hj
  · by_cases hij : j = i
    · subst hij
      exact .inl hslot
    · show _ ∨ (Function.update r.peek i p j).ahead = none
      rw [Function.update_of_ne hij]
      exact h.single j

/-- An element goes from the look-ahead into the slot. -/
theorem Balanced.moved (h : Balanced steps count returned r) (hi : i < count)
    (hslot : r.merge.slot i = none) {x : α} (hx : (r.peek i).ahead = some x) (p : Peek α)
    (hp : p.ahead = none) :
    Balanced steps count returned
      (self.set (r.merge.putSlot i (some x)) ((peekAt i).set p r)) := by
  have hlt : i < r.merge.slots.length := by rw [h.length_slots]; exact hi
  refine ⟨?_, fun j hj => ?_, fun j => ?_⟩
  · show (r.merge.putSlot i (some x)).slots.length = count
    rw [Merge.length_slots_putSlot, h.length_slots]
  · show returned j ++ (((r.merge.putSlot i (some x)).slot j).toList
      ++ (Function.update r.peek i p j).ahead.toList) = Feed.given (steps j) 0 (r.taken j)
    by_cases hij : j = i
    · subst hij
      rw [Merge.slot_putSlot_self hlt, Function.update_self, hp, ← h.balance j hj, held, hslot, hx]
      rfl
    · rw [Merge.slot_putSlot_ne (Ne.symm hij), Function.update_of_ne hij]
      exact h.balance j hj
  · show (r.merge.putSlot i (some x)).slot j = none ∨ (Function.update r.peek i p j).ahead = none
    by_cases hij : j = i
    · subst hij
      rw [Function.update_self]
      exact .inr hp
    · rw [Merge.slot_putSlot_ne (Ne.symm hij), Function.update_of_ne hij]
      exact h.single j

/-- An element goes from the slot to the caller. -/
theorem Balanced.drawn (h : Balanced steps count returned r) (hi : i < count) {x : α}
    (hx : r.merge.slot i = some x) {m : Merge α} (hm : m.slots = (r.merge.putSlot i none).slots) :
    Balanced steps count (Function.update returned i (returned i ++ [x])) (self.set m r) := by
  have hlt : i < r.merge.slots.length := by rw [h.length_slots]; exact hi
  have hsame : ∀ j, m.slot j = (r.merge.putSlot i none).slot j := by
    intro j
    unfold Merge.slot
    rw [hm]
  refine ⟨?_, fun j hj => ?_, fun j => ?_⟩
  · show m.slots.length = count
    rw [hm, Merge.length_slots_putSlot, h.length_slots]
  · show Function.update returned i _ j ++ ((m.slot j).toList ++ (r.peek j).ahead.toList)
      = Feed.given (steps j) 0 (r.taken j)
    rw [hsame]
    by_cases hij : j = i
    · subst hij
      rw [Function.update_self, Merge.slot_putSlot_self hlt, ← h.balance j hj, held, hx]
      simp
    · rw [Function.update_of_ne hij, Merge.slot_putSlot_ne (Ne.symm hij)]
      exact h.balance j hj
  · show m.slot j = none ∨ (r.peek j).ahead = none
    rw [hsame]
    by_cases hij : j = i
    · subst hij
      exact .inl (Merge.slot_putSlot_self hlt none)
    · rw [Merge.slot_putSlot_ne (Ne.symm hij)]
      exact h.single j

/-! ## §3. What one action keeps. -/

/-- A question to a source whose slot is empty. -/
theorem Balanced.asked (h : Balanced steps count returned r) (hslot : r.merge.slot i = none) :
    ∃ a r', (source steps i).hasNext r = .of a r' ∧ Balanced steps count returned r'
      ∧ r'.merge = r.merge ∧ (a = .ok true → ∃ x, (r'.peek i).ahead = some x) := by
  show ∃ a r', Peek.hasNext (peekAt i) (Feed.pull (steps i) (takenAt i)) r = .of a r' ∧ _
  match hahead : (r.peek i).ahead with
  | some x =>
      have hheld : ((peekAt i).get r).ahead = some x := hahead
      exact ⟨.ok true, r, Peek.hasNext_of_held hheld, h, rfl, fun _ => ⟨x, hahead⟩⟩
  | none =>
      have hfree : ((peekAt i).get r).ahead = none := hahead
      by_cases hend : (r.peek i).ended = true
      · exact ⟨.ok false, r, Peek.hasNext_of_ended hfree hend, h, rfl, by simp⟩
      · rw [Bool.not_eq_true] at hend
        have hfresh : ((peekAt i).get r).ended = false := hend
        have hpull : Feed.pull (steps i) (takenAt i) r
            = .of (steps i (r.taken i)) ((takenAt i).set (r.taken i + 1) r) := Feed.pull_apply r
        match hstep : steps i (r.taken i) with
        | .ok x =>
            rw [hstep] at hpull
            refine ⟨.ok true, _, Peek.hasNext_of_value hfree hfresh hpull,
              h.produced hslot hahead hstep _ rfl, rfl, fun _ => ⟨x, ?_⟩⟩
            show (Function.update r.peek i _ i).ahead = some x
            rw [Function.update_self]
        | .error e =>
            rw [hstep] at hpull
            have h₁ := h.stepped hstep
            by_cases he : e.isEnd = true
            · exact ⟨.ok false, _, Peek.hasNext_of_end hfree hfresh hpull he, h₁.withPeek rfl,
                rfl, by simp⟩
            · exact ⟨.error e, _, Peek.hasNext_of_failure hfree hfresh hpull he, h₁, rfl,
                by simp⟩

/-- Filling a slot, whether it comes off or not. -/
theorem Balanced.fill (h : Balanced steps count returned r) (hi : i < count) :
    ∃ a r', Merge.fill self i (source steps i) r = .of a r' ∧ Balanced steps count returned r'
      ∧ Merge.Fills r.merge r'.merge ∧ (a = .ok true → (r'.merge.slot i).isSome) := by
  cases hslot : r.merge.slot i with
  | some x =>
      refine ⟨.ok true, r, ?_, h, .refl _, fun _ => by rw [hslot]; rfl⟩
      have hself : (self.get r).slot i = some x := hslot
      simp only [Merge.fill, Act.bind_apply, Field.read_apply, hself]
      rfl
  | none =>
      have hself : (self.get r).slot i = none := hslot
      obtain ⟨a, r₁, hask, h₁, hmerge, hsome⟩ := h.asked hslot
      have hslot₁ : (self.get r₁).slot i = none := by
        show r₁.merge.slot i = none
        rw [hmerge, hslot]
      have hfills : Merge.Fills r.merge r₁.merge := hmerge ▸ .refl _
      cases a with
      | error e =>
          refine ⟨.error e, r₁, ?_, h₁, hfills, by simp⟩
          simp only [Merge.fill, Act.bind_apply, Field.read_apply, hself, Option.isSome_none,
            Bool.false_eq_true, if_false, hask, Outcome.of]
      | ok more =>
          cases more with
          | false =>
              refine ⟨.ok false, r₁, ?_, h₁, hfills, by simp⟩
              simp only [Merge.fill, Act.bind_apply, Field.read_apply, hself, Option.isSome_none,
                Bool.false_eq_true, if_false, hask, Outcome.of, hslot₁]
              rfl
          | true =>
              obtain ⟨x, hx⟩ := hsome rfl
              have hheld : ((peekAt i).get r₁).ahead = some x := hx
              -- The element that the question brought is taken out again at once.
              have hnext : (source steps i).next r₁
                  = .value x ((peekAt i).set { r₁.peek i with ahead := none } r₁) :=
                Peek.next_of_held hheld
              refine ⟨.ok true, _, ?_, h₁.moved hi hslot₁ hx { r₁.peek i with ahead := none } rfl,
                hmerge ▸ Merge.Fills.putSlot hslot x, fun _ => ?_⟩
              · have hlt : i < r₁.merge.slots.length := by rw [h₁.length_slots]; exact hi
                have hput : (r₁.merge.putSlot i (some x)).slot i = some x :=
                  Merge.slot_putSlot_self hlt _
                simp only [Merge.fill, Act.bind_apply, Field.read_apply, hself, Option.isSome_none,
                  Bool.false_eq_true, if_false, hask, Outcome.of, if_true, hnext,
                  Field.modify_apply]
                show Outcome.value ((r₁.merge.putSlot i (some x)).slot i).isSome _ = _
                rw [hput]
                rfl
              · show ((r₁.merge.putSlot i (some x)).slot i).isSome = true
                rw [Merge.slot_putSlot_self (by rw [h₁.length_slots]; exact hi)]
                rfl

section

variable [Inhabited α] {compare : α → α → κ → Except Failure Bool × κ}

/-- A pass over the sources from the `i`-th one on.  What it finds is in a slot. -/
theorem Balanced.scan (compare : α → α → κ → Except Failure Bool × κ)
    (h : Balanced steps count returned r) {n : Nat} (hn : i + n = count)
    {best : Option (Nat × α)}
    (hbest : ∀ j x, best = some (j, x) → j < count ∧ (r.merge.slot j).isSome) :
    ∃ a r', Merge.scan self (weigh compare) ((List.range' i n).map (source steps)) i best r
        = .of a r'
      ∧ Balanced steps count returned r'
      ∧ ∀ j x, a = .ok (some (j, x)) → j < count ∧ (r'.merge.slot j).isSome := by
  induction n generalizing i r best with
  | zero =>
      refine ⟨.ok best, r, rfl, h, fun j x hj => hbest j x ?_⟩
      exact Except.ok.inj hj
  | succ n ih =>
      obtain ⟨a, r₁, hfill, h₁, hfills, hsome⟩ := h.fill (i := i) (by omega)
      have hkept : ∀ {j : Nat}, (r.merge.slot j).isSome → (r₁.merge.slot j).isSome := by
        intro j hj
        obtain ⟨x, hx⟩ := Option.isSome_iff_exists.mp hj
        rw [hfills.slot_eq j x hx]
        rfl
      have hbest₁ : ∀ j x, best = some (j, x) → j < count ∧ (r₁.merge.slot j).isSome :=
        fun j x hj => ⟨(hbest j x hj).1, hkept (hbest j x hj).2⟩
      have hhere : ∀ {x : α}, a = .ok true → ∀ j y, some (i, x) = some (j, y) →
          j < count ∧ (r₁.merge.slot j).isSome := by
        intro x ha j y hj
        simp only [Option.some.injEq, Prod.mk.injEq] at hj
        rw [← hj.1]
        exact ⟨by omega, hsome ha⟩
      rw [List.range'_succ, List.map_cons]
      cases a with
      | error e =>
          refine ⟨.error e, r₁, ?_, h₁, by simp⟩
          simp only [Merge.scan, Act.bind_apply, hfill, Outcome.of]
      | ok filled =>
          cases filled with
          | false =>
              simp only [Merge.scan, Act.bind_apply, hfill, Outcome.of, Bool.false_eq_true,
                if_false]
              exact ih h₁ (by omega) hbest₁
          | true =>
              cases best with
              | none =>
                  simp only [Merge.scan, Act.bind_apply, hfill, Outcome.of, if_true,
                    Act.pure_apply, Field.read_apply]
                  exact ih h₁ (by omega) (hhere rfl)
              | some least =>
                  obtain ⟨j, y⟩ := least
                  simp only [Merge.scan, Act.bind_apply, hfill, Outcome.of, if_true,
                    Field.read_apply, weigh]
                  -- Whatever the comparison answers, the elements stay where they are.
                  have h₂ := h₁.withMood
                    (compare (((self.get r₁).slot i).getD default) y r₁.mood).2
                  cases (compare (((self.get r₁).slot i).getD default) y r₁.mood).1 with
                  | error e => exact ⟨.error e, _, rfl, h₂, by simp⟩
                  | ok better =>
                      cases better with
                      | true => exact ih h₂ (by omega) (hhere rfl)
                      | false => exact ih h₂ (by omega) hbest₁

/-- A step of the merge returns an element and takes it off its source's account, or it fails and
the accounts stay as they are. -/
theorem Balanced.next (compare : α → α → κ → Except Failure Bool × κ)
    (h : Balanced steps count returned r) :
    ∃ a r', (merged steps compare count).next r = .of a r'
      ∧ match a with
        | .ok x => ∃ i, i < count ∧ r'.merge.last = some i
            ∧ Balanced steps count (Function.update returned i (returned i ++ [x])) r'
        | .error _ => Balanced steps count returned r' := by
  have hnone : ∀ j x, (none : Option (Nat × α)) = some (j, x) →
      j < count ∧ (r.merge.slot j).isSome := by simp
  obtain ⟨a, r₁, hscan, h₁, hsome⟩ := h.scan compare (Nat.zero_add count) hnone
  rw [← List.range_eq_range'] at hscan
  show ∃ a r', Merge.next self _ _ r = .of a r' ∧ _
  match a with
  | .error e =>
      refine ⟨.error e, r₁, ?_, h₁⟩
      simp only [Merge.next, Act.bind_apply, hscan, Outcome.of]
  | .ok none =>
      refine ⟨.error .ended, r₁, ?_, h₁⟩
      simp only [Merge.next, Act.bind_apply, hscan, Outcome.of, Act.fail_apply]
  | .ok (some (i, y)) =>
      obtain ⟨hi, hslot⟩ := hsome i y rfl
      obtain ⟨x, hx⟩ := Option.isSome_iff_exists.mp hslot
      have hself : (self.get r₁).slot i = some x := hx
      let m : Merge α := { slots := r₁.merge.slots.set i none, last := some i, removable := true }
      refine ⟨.ok x, self.set m r₁, ?_, i, hi, rfl, h₁.drawn hi hx rfl⟩
      simp only [Merge.next, Act.bind_apply, hscan, Outcome.of, Field.read_apply,
        Field.modify_apply, hself, Option.getD_some]
      rfl

end

/-- Asking the sources from the `i`-th one on, with all slots empty. -/
theorem Balanced.anyHasNext (h : Balanced steps count returned r)
    (hslots : ∀ j, r.merge.slot j = none) (i n : Nat) :
    ∃ a r', Merge.anyHasNext ((List.range' i n).map (source steps)) r = .of a r'
      ∧ Balanced steps count returned r' := by
  induction n generalizing i r with
  | zero => exact ⟨.ok false, r, rfl, h⟩
  | succ n ih =>
      obtain ⟨a, r₁, hask, h₁, hmerge, -⟩ := h.asked (hslots i)
      rw [List.range'_succ, List.map_cons]
      match a with
      | .error e =>
          refine ⟨.error (if e.isEnd then .endedInside e else e), r₁, ?_, h₁⟩
          simp only [Merge.anyHasNext, Act.bind_apply, Act.sealed, hask, Outcome.of]
      | .ok true =>
          refine ⟨.ok true, r₁, ?_, h₁⟩
          simp only [Merge.anyHasNext, Act.bind_apply, Act.sealed, hask, Outcome.of, if_true]
          rfl
      | .ok false =>
          obtain ⟨a', r', hany, h'⟩ := ih h₁ (fun j => by rw [hmerge]; exact hslots j) (i + 1)
          refine ⟨a', r', ?_, h'⟩
          simp only [Merge.anyHasNext, Act.bind_apply, Act.sealed, hask, Outcome.of,
            Bool.false_eq_true, if_false]
          exact hany

/-- A question to the merge. -/
theorem Balanced.hasNext [Inhabited α] (compare : α → α → κ → Except Failure Bool × κ)
    (h : Balanced steps count returned r) :
    ∃ a r', (merged steps compare count).hasNext r = .of a r'
      ∧ Balanced steps count returned r' := by
  show ∃ a r', Merge.hasNext self _ r = .of a r' ∧ _
  by_cases hany : r.merge.slots.any Option.isSome = true
  · have hself : (self.get r).slots.any Option.isSome = true := hany
    refine ⟨.ok true, r, ?_, h⟩
    simp only [Merge.hasNext, Act.bind_apply, Field.read_apply, hself, if_true]
    rfl
  · have hself : (self.get r).slots.any Option.isSome = false := Bool.not_eq_true _ ▸ hany
    obtain ⟨a, r', hask, h'⟩ := h.anyHasNext (Merge.slot_eq_none_of_any hany) 0 count
    refine ⟨a, r', ?_, h'⟩
    rw [← List.range_eq_range'] at hask
    simp only [Merge.hasNext, Act.bind_apply, Field.read_apply, hself, Bool.false_eq_true,
      if_false, hask]

/-! ## §4. Every run. -/

/-- The elements returned from a source, the one held ahead of it, if any, and those still to
come, however far one looks, are the elements of the source in their order. -/
structure Conserves (steps : Nat → Nat → Except Failure α) (count : Nat)
    (returned : Nat → List α) (r : Rack α κ) : Prop where
  conserved : ∀ i, i < count → ∀ n, returned i ++ r.held i ++ Feed.given (steps i) (r.taken i) n
    = Feed.given (steps i) 0 (r.taken i + n)
  held_le : ∀ i, i < count → (r.held i).length ≤ 1

theorem Balanced.conserves (h : Balanced steps count returned r) :
    Conserves steps count returned r where
  conserved i hi n := by
    rw [h.balance i hi, Feed.given_add, Nat.zero_add]
  held_le i hi := by
    unfold held
    rcases h.single i with hslot | hahead
    · rw [hslot]
      cases (r.peek i).ahead <;> simp
    · rw [hahead]
      cases r.merge.slot i <;> simp

/-- A run on which nothing is lost, read twice or read too far ahead, before and after each call.
A step that answers tells which source its element is from; one that fails, for whatever cause,
returns nothing. -/
def Accounts [Inhabited α] (steps : Nat → Nat → Except Failure α)
    (compare : α → α → κ → Except Failure Bool × κ) (count : Nat) :
    List Merge.Draw → (Nat → List α) → Rack α κ → Prop
  | [], returned, r => Conserves steps count returned r
  | call :: calls, returned, r => Conserves steps count returned r
      ∧ match call with
        | .hasNext => ∃ a r', (merged steps compare count).hasNext r = .of a r'
            ∧ Accounts steps compare count calls returned r'
        | .next => ∃ a r', (merged steps compare count).next r = .of a r'
            ∧ match a with
              | .ok x => ∃ i : Nat, i < count ∧ Merge.lastIndex self r' = .value i r'
                  ∧ Accounts steps compare count calls
                    (Function.update returned i (returned i ++ [x])) r'
              | .error _ => Accounts steps compare count calls returned r'

theorem Balanced.accounts [Inhabited α] (compare : α → α → κ → Except Failure Bool × κ)
    (calls : List Merge.Draw) (h : Balanced steps count returned r) :
    Accounts steps compare count calls returned r := by
  induction calls generalizing returned r with
  | nil => exact h.conserves
  | cons call calls ih =>
      refine ⟨h.conserves, ?_⟩
      cases call with
      | hasNext =>
          obtain ⟨a, r', hask, h'⟩ := h.hasNext compare
          exact ⟨a, r', hask, ih h'⟩
      | next =>
          obtain ⟨a, r', hnext, h'⟩ := h.next compare
          refine ⟨a, r', hnext, ?_⟩
          match a with
          | .error _ => exact ih h'
          | .ok x =>
              obtain ⟨i, hi, hlast, h'⟩ := h'
              refine ⟨i, hi, ?_, ih h'⟩
              have hself : (self.get r').last = some i := hlast
              simp only [Merge.lastIndex, Act.bind_apply, Field.read_apply, hself]
              rfl

/-- Before the first call nothing is returned and nothing is held. -/
theorem balanced_start (steps : Nat → Nat → Except Failure α) (count : Nat) (mood : κ) :
    Balanced steps count (fun _ => []) { merge := Merge.start count, mood := mood } where
  length_slots := List.length_replicate
  balance i _ := by
    show [] ++ ((Merge.start count).slot i).toList ++ [] = Feed.given (steps i) 0 0
    rw [Merge.slot_start]
    rfl
  single _ := .inr rfl

/-- A merge of plain sources, which may be endless and may fail, keeps account of every element
under every comparison, also of one that changes its mind or fails. -/
theorem merge_accounts [Inhabited α] (steps : Nat → Nat → Except Failure α)
    (compare : α → α → κ → Except Failure Bool × κ) (count : Nat) (mood : κ)
    (calls : List Merge.Draw) :
    Accounts steps compare count calls (fun _ => [])
      { merge := Merge.start count, mood := mood } :=
  (balanced_start steps count mood).accounts compare calls

end Rack

end Cursors
