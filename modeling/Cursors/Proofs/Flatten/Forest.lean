/-
  Cursors.Proofs.Flatten.Forest
  ─────────────────────────────
  **FLATTENING BY RECURSION.**

  A forest is a row of values, each with what a classifier makes of it:

      leaf     an element to give out
      fails    a failure
      branch   a row of values below, with what becomes of these

  Everything that a flattening is measured by is defined on forests by
  recursion: the visits in the order in which values are examined, each with
  the outcome that it leads to, and the outcomes alone.
-/
import Cursors.Proofs.Bench

namespace Cursors

/-- What a classifier makes of a value. -/
inductive Kind (α : Type) where
  | leaf (x : α)
  | branch (below : List α)
  | fails (e : Failure)
  deriving DecidableEq

/-- Values in a row, each with what becomes of it. -/
inductive Forest (α : Type) where
  | nil
  | leaf (v x : α) (next : Forest α)
  | fails (v : α) (e : Failure) (next : Forest α)
  | branch (v : α) (below next : Forest α)

/-- The examination of a value, and the outcome that is met there, if one is. -/
structure Visit (α : Type) where
  value : α
  outcome : Option (Except Failure α)

namespace Forest

variable {α : Type}

/-! ## §1. The recursive flattening. -/

/-- The values in the row. -/
def values : Forest α → List α
  | nil => []
  | leaf v _ next => v :: next.values
  | fails v _ next => v :: next.values
  | branch v _ next => v :: next.values

/-- A classifier makes of each value what the forest says. -/
def Follows (kind : α → Kind α) : Forest α → Prop
  | nil => True
  | leaf v x next => kind v = .leaf x ∧ next.Follows kind
  | fails v e next => kind v = .fails e ∧ next.Follows kind
  | branch v below next =>
      kind v = .branch below.values ∧ below.Follows kind ∧ next.Follows kind

section

variable (raised : α → Failure → Failure)

/-- The visits depth first and from left to right; `raised v e` is how the failure `e` at the
value `v` is reported. -/
def visits : Forest α → List (Visit α)
  | nil => []
  | leaf v x next => ⟨v, some (.ok x)⟩ :: next.visits
  | fails v e next => ⟨v, some (.error (raised v e))⟩ :: next.visits
  | branch v below next => ⟨v, none⟩ :: (below.visits ++ next.visits)

/-- The leaves and failures from left to right. -/
def outcomes : Forest α → List (Except Failure α)
  | nil => []
  | leaf _ x next => .ok x :: next.outcomes
  | fails v e next => .error (raised v e) :: next.outcomes
  | branch _ below next => below.outcomes ++ next.outcomes

end

/-- The number of steps that it takes to walk through the row: one for each value, and one to
leave each branch. -/
def weight : Forest α → Nat
  | nil => 0
  | leaf _ _ next => next.weight + 1
  | fails _ _ next => next.weight + 1
  | branch _ below next => below.weight + next.weight + 2

theorem outcomes_eq (raised : α → Failure → Failure) (f : Forest α) :
    (f.visits raised).filterMap Visit.outcome = f.outcomes raised := by
  induction f with
  | nil => rfl
  | leaf v x next ih => simp only [visits, outcomes, List.filterMap_cons, ih]
  | fails v e next ih => simp only [visits, outcomes, List.filterMap_cons, ih]
  | branch v below next ihb ihn =>
      rw [visits, outcomes, List.filterMap_cons_none rfl, List.filterMap_append, ihb, ihn]

end Forest

/-! ## §2. Walking up to an outcome. -/

namespace Visit

variable {α : Type} {made ms : List (Visit α)} {n : Nat}

/-- The visits up to the `n`-th outcome, or all of them if there are not as many outcomes. -/
def upTo : Nat → List (Visit α) → List (Visit α)
  | 0, _ => []
  | _ + 1, [] => []
  | n + 1, m :: ms => m :: upTo (if m.outcome.isSome then n else n + 1) ms

/-- The last visit, if there is one, met an outcome. -/
def Stops (made : List (Visit α)) : Prop := ∀ m ∈ made.getLast?, m.outcome.isSome

theorem stops_nil : Stops ([] : List (Visit α)) := by
  intro m hm
  exact absurd hm (by simp)

theorem stops_append_singleton (pre : List (Visit α)) {m : Visit α} (hm : m.outcome.isSome) :
    Stops (pre ++ [m]) := by
  intro m' hm'
  rw [List.getLast?_concat, Option.mem_some_iff] at hm'
  rw [← hm']
  exact hm

/-- Visits that stop at their `n`-th outcome are those up to it, whatever follows. -/
theorem upTo_of_stops (hstops : Stops made) (hn : (made.filterMap outcome).length = n)
    (rest : List (Visit α)) : upTo n (made ++ rest) = made := by
  induction made generalizing n with
  | nil =>
      obtain rfl : 0 = n := hn
      rw [upTo]
  | cons m made ih =>
      have hrest : Stops made := by
        intro m' hm'
        apply hstops
        rw [List.getLast?_cons, Option.mem_def.mp hm']
        rfl
      cases ho : m.outcome with
      | some r =>
          rw [List.filterMap_cons_some ho, List.length_cons] at hn
          subst hn
          rw [List.cons_append, upTo, ho, Option.isSome_some, if_pos rfl, ih hrest rfl]
      | none =>
          rw [List.filterMap_cons_none ho] at hn
          -- A visit without outcome is not the last one, so an outcome is still to come.
          have hne : made ≠ [] := by
            rintro rfl
            have := hstops m rfl
            rw [ho] at this
            exact Bool.false_ne_true this
          have hpos : (made.filterMap outcome).length ≠ 0 := by
            intro hzero
            have hlast := hrest _ (List.getLast?_eq_some_getLast hne)
            obtain ⟨r, hr⟩ := Option.isSome_iff_exists.mp hlast
            have hmem : r ∈ made.filterMap outcome :=
              List.mem_filterMap.mpr ⟨_, List.getLast_mem hne, hr⟩
            rw [List.length_eq_zero_iff.mp hzero] at hmem
            exact absurd hmem List.not_mem_nil
          obtain ⟨k, rfl⟩ : ∃ k, n = k + 1 := Nat.exists_eq_succ_of_ne_zero (hn ▸ hpos)
          rw [List.cons_append, upTo, ho, Option.isSome_none, if_neg Bool.false_ne_true,
            ih hrest hn]

theorem upTo_of_lt (hn : (ms.filterMap outcome).length < n) : upTo n ms = ms := by
  induction ms generalizing n with
  | nil => cases n <;> rfl
  | cons m ms ih =>
      obtain ⟨k, rfl⟩ := Nat.exists_eq_succ_of_ne_zero (Nat.ne_zero_of_lt hn)
      cases ho : m.outcome with
      | some r =>
          rw [List.filterMap_cons_some ho, List.length_cons] at hn
          rw [upTo, ho, Option.isSome_some, if_pos rfl, ih (Nat.lt_of_succ_lt_succ hn)]
      | none =>
          rw [List.filterMap_cons_none ho] at hn
          rw [upTo, ho, Option.isSome_none, if_neg Bool.false_ne_true, ih hn]

end Visit

end Cursors
