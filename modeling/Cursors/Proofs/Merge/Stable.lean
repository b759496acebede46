/-
  Cursors.Proofs.Merge.Stable
  ───────────────────────────
  **A MERGE OF SORTED SOURCES IS A STABLE SORT.**

  Every element is stamped with its source and its place there.  If the
  comparison is a strict weak order and every source is sorted, the merge
  gives the stamped elements in the order

      first by value, then by source, then by place

  whatever questions are asked in between (`merge_stable`).  The heart is
  `pick_least`: the pass picks the leftmost of the least heads.
-/
import Mathlib.Order.Defs.Unbundled
import Cursors.Proofs.Merge.Shelf

namespace Cursors

namespace Merge

variable {σ α β : Type}

/-! ## §1. Strict weak orders. -/

section

variable {lt : α → α → Bool} [IsStrictWeakOrder α fun a b => lt a b = true]

theorem before_irrefl (a : α) : lt a a = false := by
  have h := irrefl_of (fun a b => lt a b = true) a
  simpa using h

theorem before_trans {a b c : α} (hab : lt a b = true) (hbc : lt b c = true) : lt a c = true :=
  trans_of (fun a b => lt a b = true) hab hbc

/-- Not to come before is transitive as well. -/
theorem not_before_trans {a b c : α} (hab : lt a b = false) (hbc : lt b c = false) :
    lt a c = false := by
  rw [← Bool.not_eq_true] at hab hbc ⊢
  intro hac
  have hba : ¬ lt b a = true := fun hba => hbc (before_trans hba hac)
  have hcb : ¬ lt c b = true := fun hcb => hab (before_trans hac hcb)
  have hincomp := @IsStrictWeakOrder.incomp_trans α (fun a b => lt a b = true) _ a b c
  exact (hincomp ⟨hab, hba⟩ ⟨hbc, hcb⟩).1 hac

/-- What comes before one element comes before each that does not come before that one. -/
theorem before_of_before_of_not {a b c : α} (hab : lt a b = true) (hcb : lt c b = false) :
    lt a c = true := by
  match hac : lt a c with
  | true => rfl
  | false =>
      rw [not_before_trans hac hcb] at hab
      exact absurd hab (by decide)

/-- What comes before an element comes before it still from behind something smaller. -/
theorem before_of_not_of_before {a b c : α} (hac : lt a c = false) (hab : lt a b = true) :
    lt c b = true := by
  match hcb : lt c b with
  | true => rfl
  | false =>
      rw [not_before_trans hac hcb] at hab
      exact absurd hab (by decide)

theorem before_asymm {a b : α} (hab : lt a b = true) : lt b a = false := by
  match hba : lt b a with
  | false => rfl
  | true =>
      have haa := before_trans hab hba
      exact absurd (haa.symm.trans (before_irrefl a)) (by decide)

end

/-! ## §2. The leftmost of the least heads. -/

/-- The element `x` of the `k`-th source does not come after `y`, the head of the `j`-th one, and
comes before it if `y` is to the left. -/
def Leads (lt : α → α → Bool) (k : Nat) (x : α) (j : Nat) (y : α) : Prop :=
  lt y x = false ∧ (j < k → lt x y = true)

/-- The element `x` leads all heads of the rows, which are counted from `i` on. -/
def LeadsAll (lt : α → α → Bool) (k : Nat) (x : α) (i : Nat) (rows : List (List α)) : Prop :=
  ∀ j y rest, rows[j]? = some (y :: rest) → Leads lt k x (i + j) y

theorem leadsAll_cons {lt : α → α → Bool} {rows : List (List α)} {row : List α} {i k : Nat} {x : α}
    (hrow : ∀ y rest, row = y :: rest → Leads lt k x i y)
    (hrows : LeadsAll lt k x (i + 1) rows) : LeadsAll lt k x i (row :: rows) := by
  intro j y rest hj
  cases j with
  | zero => exact hrow y rest (Option.some.inj hj)
  | succ j =>
      obtain ⟨hle, hlt⟩ := hrows j y rest hj
      exact ⟨hle, fun hk => hlt (by omega)⟩

section

variable {lt : α → α → Bool} [IsStrictWeakOrder α fun a b => lt a b = true]

/-- What leads the better of two elements leads both. -/
theorem Leads.of_before {k i j : Nat} {x y z : α} (h : Leads lt k x i y) (hyz : lt y z = true) :
    Leads lt k x j z := by
  have hxz : lt x z = true := before_of_not_of_before h.1 hyz
  exact ⟨before_asymm hxz, fun _ => hxz⟩

/-- An element that leads a head leads those to the right of it that do not come before it. -/
theorem Leads.of_not_before {k i j : Nat} {x y z : α} (h : Leads lt k x j y) (hji : j < i)
    (hzy : lt z y = false) : Leads lt k x i z :=
  ⟨not_before_trans hzy h.1, fun hk => before_of_before_of_not (h.2 (by omega)) hzy⟩

/-- What is picked leads the best so far and all heads. -/
theorem pick_least {rows : List (List α)} {i k : Nat} {x : α} {best : Option (Nat × α)}
    (h : pick lt rows i best = some (k, x)) (hbest : ∀ j y, best = some (j, y) → j < i) :
    (∀ j y, best = some (j, y) → Leads lt k x j y) ∧ LeadsAll lt k x i rows := by
  -- The induction is on the rows; the best so far takes part in the pass like a head.
  induction rows generalizing i best with
  | nil =>
      obtain rfl : best = some (k, x) := h
      refine ⟨fun j y hy => ?_, fun j y rest hy => by simp at hy⟩
      simp only [Option.some.injEq, Prod.mk.injEq] at hy
      obtain ⟨rfl, rfl⟩ := hy
      exact ⟨before_irrefl x, fun hk => absurd hk (Nat.lt_irrefl k)⟩
  | cons row rows ih =>
      have hnew : ∀ {w : α} (j : Nat) (y : α), some (i, w) = some (j, y) → j < i + 1 := by
        intro w j y hy
        simp only [Option.some.injEq, Prod.mk.injEq] at hy
        omega
      match row, best with
      | [], best =>
          obtain ⟨hb, hrows⟩ := ih h fun j y hy => Nat.lt_succ_of_lt (hbest j y hy)
          exact ⟨hb, leadsAll_cons (by simp) hrows⟩
      | w :: ws, none =>
          obtain ⟨hb, hrows⟩ := ih h hnew
          refine ⟨by simp, leadsAll_cons (fun y rest hy => ?_) hrows⟩
          obtain rfl : w = y := (List.cons.inj hy).1
          exact hb i w rfl
      | w :: ws, some (j₀, v) =>
          have hj₀ := hbest j₀ v rfl
          rw [pick] at h
          by_cases hwv : lt w v
          · -- The new head is better than the best so far and takes its place.
            rw [if_pos hwv] at h
            obtain ⟨hb, hrows⟩ := ih h hnew
            have hw : Leads lt k x i w := hb i w rfl
            refine ⟨fun j y hy => ?_, leadsAll_cons (fun y rest hy => ?_) hrows⟩
            · simp only [Option.some.injEq, Prod.mk.injEq] at hy
              obtain ⟨rfl, rfl⟩ := hy
              exact hw.of_before hwv
            · obtain rfl : w = y := (List.cons.inj hy).1
              exact hw
          · -- The best so far is to the left of the new head and stays.
            rw [if_neg hwv] at h
            rw [Bool.not_eq_true] at hwv
            obtain ⟨hb, hrows⟩ := ih h fun j y hy => Nat.lt_succ_of_lt (hbest j y hy)
            refine ⟨hb, leadsAll_cons (fun y rest hy => ?_) hrows⟩
            obtain rfl : w = y := (List.cons.inj hy).1
            exact (hb j₀ v rfl).of_not_before hj₀ hwv

end

theorem pick_eq_none {lt : α → α → Bool} {rows : List (List α)} {i : Nat}
    {best : Option (Nat × α)} (h : pick lt rows i best = none) :
    best = none ∧ ∀ row ∈ rows, row = [] := by
  induction rows generalizing i best with
  | nil => exact ⟨h, by simp⟩
  | cons row rows ih =>
      match row, best with
      | [], best =>
          obtain ⟨hbest, hrows⟩ := ih h
          refine ⟨hbest, fun row hrow => ?_⟩
          rcases List.mem_cons.mp hrow with rfl | hrow
          · rfl
          · exact hrows row hrow
      | x :: _, none => exact absurd (ih h).1 (by simp)
      | x :: _, some (j, y) =>
          have hnone := (ih h).1
          split at hnone <;> exact absurd hnone (by simp)

/-- The pass looks at the values of the heads only. -/
theorem pick_map (lt : α → α → Bool) (f : β → α) (rows : List (List β)) (i : Nat)
    (best : Option (Nat × β)) :
    pick lt (rows.map (List.map f)) i (best.map fun p => (p.1, f p.2))
      = (pick (fun a b => lt (f a) (f b)) rows i best).map fun p => (p.1, f p.2) := by
  induction rows generalizing i best with
  | nil => rfl
  | cons row rows ih =>
      match row, best with
      | [], best => exact ih (i + 1) best
      | a :: _, none => exact ih (i + 1) (some (i, a))
      | a :: _, some (j, c) =>
          simp only [List.map_cons, Option.map_some, pick]
          rw [← ih]
          split <;> rfl

/-! ## §3. Stamped elements. -/

/-- An element with its source and its place in what the source delivers. -/
structure Stamped (α : Type) where
  child : Nat
  place : Nat
  value : α
  deriving Repr, DecidableEq

/-- The order of a stable sort of what the sources deliver, one after the other. -/
def Stamped.Before (lt : α → α → Bool) (a b : Stamped α) : Prop :=
  lt a.value b.value = true ∨ (lt b.value a.value = false
    ∧ (a.child < b.child ∨ (a.child = b.child ∧ a.place < b.place)))

/-- Stamp what the `i`-th source delivers. -/
def stampRow (i : Nat) (xs : List α) : List (Stamped α) := xs.mapIdx fun j x => ⟨i, j, x⟩

/-- Stamp what all sources deliver. -/
def stampRows (xss : List (List α)) : List (List (Stamped α)) := xss.mapIdx stampRow

theorem map_mapIdx_eq_self {γ : Type} {f : Nat → γ → β} {g : β → γ} {l : List γ}
    (h : ∀ i a, g (f i a) = a) : (l.mapIdx f).map g = l := by
  apply List.ext_getElem?
  intro i
  rw [List.getElem?_map, List.getElem?_mapIdx]
  cases l[i]? with
  | none => rfl
  | some a => simp only [Option.map_some, h]

theorem map_value_stampRows (xss : List (List α)) :
    (stampRows xss).map (List.map Stamped.value) = xss :=
  map_mapIdx_eq_self fun _ _ => map_mapIdx_eq_self fun _ _ => rfl

/-- Every row has the stamp of its source, places ascend, and values do not descend. -/
def Ordered (lt : α → α → Bool) (rows : List (List (Stamped α))) : Prop :=
  ∀ (i : Nat) (row : List (Stamped α)), rows[i]? = some row → (∀ a ∈ row, a.child = i)
    ∧ row.Pairwise fun a b => a.place < b.place ∧ lt b.value a.value = false

theorem ordered_stampRows {lt : α → α → Bool} {xss : List (List α)}
    (h : ∀ xs ∈ xss, xs.Pairwise fun x y => lt y x = false) : Ordered lt (stampRows xss) := by
  intro i row hrow
  rw [stampRows, List.getElem?_mapIdx] at hrow
  obtain ⟨xs, hxs, rfl⟩ := Option.map_eq_some_iff.mp hrow
  constructor
  · intro a ha
    obtain ⟨j, hj, rfl⟩ := List.mem_mapIdx.mp ha
    rfl
  · rw [List.pairwise_iff_getElem]
    intro p q hp hq hpq
    have hsorted := List.pairwise_iff_getElem.mp (h xs (List.mem_of_getElem? hxs))
    simp only [stampRow, List.length_mapIdx] at hp hq
    simp only [stampRow, List.getElem_mapIdx]
    exact ⟨hpq, hsorted p q hp hq hpq⟩

/-- Taking off a head leaves the rows ordered. -/
theorem Ordered.set {lt : α → α → Bool} {rows : List (List (Stamped α))} (h : Ordered lt rows)
    {i : Nat} {a : Stamped α} {rest : List (Stamped α)} (hrow : rows[i]? = some (a :: rest)) :
    Ordered lt (rows.set i rest) := by
  intro j row hj
  by_cases hij : i = j
  · subst hij
    have hlt := (List.getElem?_eq_some_iff.mp hrow).1
    rw [List.getElem?_set_self hlt, Option.some.injEq] at hj
    subst hj
    obtain ⟨hchild, hpair⟩ := h i _ hrow
    exact ⟨fun b hb => hchild b (List.mem_cons_of_mem a hb), hpair.of_cons⟩
  · rw [List.getElem?_set_ne hij] at hj
    exact h j row hj

/-! ## §4. Drawing all elements. -/

/-- The elements come off the rows in this order. -/
inductive Draws (lt : α → α → Bool) : List (List (Stamped α)) → List (Stamped α) → Prop where
  | ended {rows : List (List (Stamped α))}
      (hpick : pick (fun a b => lt a.value b.value) rows 0 none = none) : Draws lt rows []
  | drawn {rows : List (List (Stamped α))} {i : Nat} {a : Stamped α}
      {rest out : List (Stamped α)}
      (hpick : pick (fun a b => lt a.value b.value) rows 0 none = some (i, a))
      (hrow : rows[i]? = some (a :: rest)) (hout : Draws lt (rows.set i rest) out) :
      Draws lt rows (a :: out)

theorem perm_flatten_set {rows : List (List β)} {i : Nat} {a : β} {rest : List β}
    (h : rows[i]? = some (a :: rest)) : rows.flatten.Perm (a :: (rows.set i rest).flatten) := by
  induction rows generalizing i with
  | nil => exact absurd h (by simp)
  | cons row rows ih =>
      match i with
      | 0 =>
          obtain rfl : row = a :: rest := by simpa using h
          exact .refl _
      | i + 1 =>
          have hperm := ih (i := i) h
          exact (hperm.append_left row).trans List.perm_middle

theorem exists_draws (lt : α → α → Bool) (rows : List (List (Stamped α))) :
    ∃ out, Draws lt rows out := by
  -- Every draw leaves one element less.
  induction hn : rows.flatten.length using Nat.strongRecOn generalizing rows with
  | ind n ih =>
      match hpick : pick (fun a b => lt a.value b.value) rows 0 none with
      | none => exact ⟨[], .ended hpick⟩
      | some (i, a) =>
          obtain ⟨rest, hrow⟩ := row_of_pick hpick
          have hlen := (perm_flatten_set hrow).length_eq
          rw [hn, List.length_cons] at hlen
          obtain ⟨out, hout⟩ := ih _ (by omega) (rows.set i rest) rfl
          exact ⟨a :: out, .drawn hpick hrow hout⟩

theorem Draws.perm {lt : α → α → Bool} {rows : List (List (Stamped α))}
    {out : List (Stamped α)} (h : Draws lt rows out) : out.Perm rows.flatten := by
  induction h with
  | ended hpick =>
      rw [List.flatten_eq_nil_iff.mpr (pick_eq_none hpick).2]
  | drawn _ hrow _ ih => exact (ih.cons _).trans (perm_flatten_set hrow).symm

theorem any_map_value (rows : List (List (Stamped α))) :
    ((rows.map (List.map Stamped.value)).any fun row => !row.isEmpty)
      = rows.any fun row => !row.isEmpty := by
  rw [List.any_map]
  congr 1
  funext row
  cases row <;> rfl

/-- There is a further element as long as not all are drawn. -/
theorem Draws.any_eq {lt : α → α → Bool} {rows : List (List (Stamped α))} {out : List (Stamped α)}
    (h : Draws lt rows out) : (rows.any fun row => !row.isEmpty) = !out.isEmpty := by
  cases h with
  | ended hpick =>
      rw [List.isEmpty_nil, Bool.not_true, List.any_eq_false]
      intro row hrow
      rw [(pick_eq_none hpick).2 row hrow]
      exact Bool.false_ne_true
  | drawn _ hrow _ =>
      rw [List.isEmpty_cons, Bool.not_false, List.any_eq_true]
      exact ⟨_, List.mem_of_getElem? hrow, rfl⟩

section

variable {lt : α → α → Bool} [IsStrictWeakOrder α fun a b => lt a b = true]

instance : IsStrictWeakOrder (Stamped α) fun a b => lt a.value b.value = true where
  irrefl a := by simp [before_irrefl a.value]
  trans _ _ _ hab hbc := before_trans hab hbc
  incomp_trans a b c :=
    @IsStrictWeakOrder.incomp_trans α (fun a b => lt a b = true) _ a.value b.value c.value

/-- The element drawn goes before all that are left. -/
theorem before_of_pick {rows : List (List (Stamped α))} (h : Ordered lt rows) {i : Nat}
    {a : Stamped α} {rest : List (Stamped α)}
    (hpick : pick (fun a b => lt a.value b.value) rows 0 none = some (i, a))
    (hrow : rows[i]? = some (a :: rest)) {c : Stamped α} (hc : c ∈ (rows.set i rest).flatten) :
    a.Before lt c := by
  obtain ⟨row, hmem, hcrow⟩ := List.mem_flatten.mp hc
  obtain ⟨j, hj⟩ := List.mem_iff_getElem?.mp hmem
  have hachild : a.child = i := (h i _ hrow).1 a List.mem_cons_self
  have hcchild : c.child = j := ((h.set hrow) j row hj).1 c hcrow
  by_cases hij : i = j
  · -- The element left in the same row has a later place.
    subst hij
    have hlt := (List.getElem?_eq_some_iff.mp hrow).1
    rw [List.getElem?_set_self hlt, Option.some.injEq] at hj
    subst hj
    obtain ⟨hplace, hvalue⟩ := List.rel_of_pairwise_cons (h i _ hrow).2 hcrow
    exact .inr ⟨hvalue, .inr ⟨hachild.trans hcchild.symm, hplace⟩⟩
  · -- What is left in another row comes after its head, which the element drawn leads.
    rw [List.getElem?_set_ne hij] at hj
    obtain ⟨b, t, rfl⟩ := List.exists_cons_of_ne_nil (List.ne_nil_of_mem hcrow)
    obtain ⟨hba, hab⟩ := (pick_least hpick (by simp)).2 j b t hj
    rw [Nat.zero_add] at hab
    have hcb : lt c.value b.value = false := by
      rcases List.mem_cons.mp hcrow with rfl | hct
      · exact before_irrefl c.value
      · exact (List.rel_of_pairwise_cons (h j _ hj).2 hct).2
    by_cases hlt : j < i
    · exact .inl (before_of_before_of_not (hab hlt) hcb)
    · exact .inr ⟨not_before_trans hcb hba, .inl (by omega)⟩

theorem Draws.sorted {rows : List (List (Stamped α))} {out : List (Stamped α)}
    (h : Draws lt rows out) (hrows : Ordered lt rows) : out.Pairwise (Stamped.Before lt) := by
  induction h with
  | ended _ => exact .nil
  | drawn hpick hrow hout ih =>
      refine .cons (fun c hc => ?_) (ih (hrows.set hrow))
      exact before_of_pick hrows hpick hrow (hout.perm.mem_iff.mp hc)

end

/-! ## §5. Every run. -/

/-- A question for a further element, or a step. -/
inductive Draw where
  | hasNext
  | next
  deriving Repr, DecidableEq

/-- A run on which the merge gives the elements `out` one after the other, tells after each step
which source it came from, and tells in between whether there are more. -/
def Delivers [Inhabited α] (ch : Children σ α) (lt : α → α → Bool) :
    List Draw → List (Stamped α) → σ → Prop
  | [], _, _ => True
  | .hasNext :: calls, out, s =>
      ∃ s', hasNext ch.self ch.sources s = .value (!out.isEmpty) s' ∧ Delivers ch lt calls out s'
  | .next :: calls, [], s =>
      ∃ s', next ch.self ch.sources (weigh lt) s = .failure .ended s' ∧ Delivers ch lt calls [] s'
  | .next :: calls, a :: out, s =>
      ∃ s', next ch.self ch.sources (weigh lt) s = .value a.value s'
        ∧ lastIndex ch.self s' = .value a.child s' ∧ Delivers ch lt calls out s'

section

variable [Inhabited α] {lt : α → α → Bool}

/-- The merge draws the elements from its rows, whatever is asked in between. -/
theorem Rows.delivers {ch : Children σ α} {rows : List (List (Stamped α))}
    {out : List (Stamped α)} (hrows : Ordered lt rows) (hout : Draws lt rows out)
    (calls : List Draw) {s : σ} {m : Merge α}
    (h : Rows ch s m (rows.map (List.map Stamped.value))) : Delivers ch lt calls out s := by
  -- The induction is on the calls; a question may fill slots, but takes nothing off the rows.
  induction calls generalizing s m rows out with
  | nil => trivial
  | cons call calls ih =>
      cases call with
      | hasNext =>
          obtain ⟨s', hask, h'⟩ := h.hasNext
          rw [any_map_value, hout.any_eq] at hask
          exact ⟨s', hask, ih hrows hout h'⟩
      | next =>
          have hmap := pick_map lt Stamped.value rows 0 none
          cases hout with
          | ended hpick =>
              rw [hpick] at hmap
              obtain ⟨s', m', hnext, h'⟩ := h.next_of_pick_none hmap
              exact ⟨s', hnext, ih hrows (.ended hpick) h'⟩
          | drawn hpick hrow hout =>
              rw [hpick] at hmap
              obtain ⟨rest, s', m', hrest, hnext, h', hlast⟩ := h.next_of_pick hmap
              rw [List.getElem?_map, hrow, Option.map_some, Option.some.injEq, List.map_cons,
                List.cons.injEq] at hrest
              rw [← hrest.2, ← List.map_set] at h'
              have hindex := h'.lastIndex hlast
              rw [← (hrows _ _ hrow).1 _ List.mem_cons_self] at hindex
              exact ⟨s', hnext, hindex, ih (hrows.set hrow) hout h'⟩

/-- A merge of sorted sources gives the stable sort of what they deliver, one after the other:
all elements, by value, equal ones by source and then by place. -/
theorem merge_stable [IsStrictWeakOrder α fun a b => lt a b = true] (ch : Children σ α) {s : σ}
    {xss : List (List α)} (hs : ch.Holds s (start xss.length) xss)
    (hsorted : ∀ xs ∈ xss, xs.Pairwise fun x y => lt y x = false) :
    ∃ out : List (Stamped α), out.Perm (stampRows xss).flatten
      ∧ out.Pairwise (Stamped.Before lt) ∧ ∀ calls, Delivers ch lt calls out s := by
  obtain ⟨out, hout⟩ := exists_draws lt (stampRows xss)
  have hordered := ordered_stampRows hsorted
  refine ⟨out, hout.perm, hout.sorted hordered, fun calls => ?_⟩
  have hrows : Rows ch s (start xss.length) ((stampRows xss).map (List.map Stamped.value)) := by
    rw [map_value_stampRows]
    exact rows_start hs
  exact hrows.delivers hordered hout calls

end

/-- Numbers by their tens, so that different numbers can be equal. -/
def byTens (a b : Nat) : Bool := decide (a / 10 < b / 10)

instance : IsStrictWeakOrder Nat fun a b => byTens a b = true where
  irrefl a := by simp [byTens]
  trans a b c := by simp only [byTens, decide_eq_true_eq]; omega
  incomp_trans a b c := by simp only [byTens, decide_eq_true_eq]; omega

/-- Three lists with ties between and within them, one of them empty. -/
theorem merge_stable_byTens :
    (∀ xs ∈ [[10, 31], [12, 15, 20], []], xs.Pairwise fun x y => byTens y x = false)
      ∧ ∃ out : List (Stamped Nat), out.Perm (stampRows [[10, 31], [12, 15, 20], []]).flatten
        ∧ out.Pairwise (Stamped.Before byTens)
        ∧ ∀ calls, Delivers (Shelf.children 3) byTens calls out
          (Shelf.ofLists [[10, 31], [12, 15, 20], []] (start 3)) := by
  have hsorted : ∀ xs ∈ [[10, 31], [12, 15, 20], []],
      xs.Pairwise fun x y => byTens y x = false := by
    decide
  exact ⟨hsorted, merge_stable (Shelf.children 3)
    (Shelf.holds_ofLists [[10, 31], [12, 15, 20], []] (start 3)) hsorted⟩

end Merge

end Cursors
