/-
  Cursors.Proofs.Merge.Rows
  ─────────────────────────
  **ONE PASS OF A MERGE OVER ITS SOURCES.**

  What a source has still to give is the element in its slot, if any, and
  then what the source itself delivers: a row.  Filling a slot moves an
  element from the source into the slot and changes no row.  Hence

      hasNext  tells whether a row is not empty
      next     takes off the head that `pick` finds among the rows

  The sources are any iterators that deliver finite lists and leave the
  merge and each other alone (`Children`); the comparison is pure.
-/
import Cursors.Combinator.Merge
import Cursors.Proofs.Cursor

namespace Cursors

namespace Merge

variable {σ α : Type}

/-! ## §1. Independent finite sources. -/

/-- The sources of a merge, each of which delivers a finite list; `Holds s m xss` says that the
merge is in the state `m` and the sources have `xss` still to deliver. -/
structure Children (σ α : Type) where
  self : Field σ (Merge α)
  sources : List (Forward σ α)
  Holds : σ → Merge α → List (List α) → Prop
  self_get : ∀ {s : σ} {m : Merge α} {xss : List (List α)}, Holds s m xss → self.get s = m
  self_set : ∀ {s : σ} {m : Merge α} {xss : List (List α)}, Holds s m xss →
    ∀ m', Holds (self.set m' s) m' xss
  length_eq : ∀ {s : σ} {m : Merge α} {xss : List (List α)}, Holds s m xss →
    xss.length = sources.length
  hasNext_apply : ∀ {s : σ} {m : Merge α} {xss : List (List α)} {i : Nat}
    {source : Forward σ α} {xs : List α}, Holds s m xss → sources[i]? = some source →
    xss[i]? = some xs → ∃ s', source.hasNext s = .value (!xs.isEmpty) s' ∧ Holds s' m xss
  next_apply : ∀ {s : σ} {m : Merge α} {xss : List (List α)} {i : Nat}
    {source : Forward σ α} {x : α} {xs : List α}, Holds s m xss → sources[i]? = some source →
    xss[i]? = some (x :: xs) → ∃ s', source.next s = .value x s' ∧ Holds s' m (xss.set i xs)

/-- The state of a merge with one slot written. -/
def putSlot (m : Merge α) (i : Nat) (x : Option α) : Merge α :=
  { m with slots := m.slots.set i x }

@[simp] theorem length_slots_putSlot (m : Merge α) (i : Nat) (x : Option α) :
    (m.putSlot i x).slots.length = m.slots.length := by
  simp [putSlot]

theorem slot_putSlot_self {m : Merge α} {i : Nat} (hi : i < m.slots.length) (x : Option α) :
    (m.putSlot i x).slot i = x := by
  simp [slot, putSlot, hi]

theorem slot_putSlot_ne {m : Merge α} {i j : Nat} (h : i ≠ j) (x : Option α) :
    (m.putSlot i x).slot j = m.slot j := by
  simp [slot, putSlot, List.getElem?_set_ne h]

theorem slot_eq_none_of_any {m : Merge α} (h : ¬ m.slots.any Option.isSome = true) (i : Nat) :
    m.slot i = none := by
  match hi : m.slots[i]? with
  | none => rw [slot, hi]; rfl
  | some none => rw [slot, hi]; rfl
  | some (some x) =>
      exact absurd (List.any_eq_true.mpr ⟨some x, List.mem_of_getElem? hi, rfl⟩) h

theorem slot_start (count i : Nat) : (start count : Merge α).slot i = none := by
  simp only [slot, start, List.getElem?_replicate]
  split <;> rfl

/-! ## §2. Rows. -/

/-- The sources together with the slots of the merge have `rows` still to give. -/
structure Rows (ch : Children σ α) (s : σ) (m : Merge α) (rows : List (List α)) : Prop where
  length_slots : m.slots.length = rows.length
  length_sources : ch.sources.length = rows.length
  holds : ∃ xss, ch.Holds s m xss
    ∧ ∀ i row, rows[i]? = some row → ∃ xs, xss[i]? = some xs ∧ row = (m.slot i).toList ++ xs

/-- Slots only get filled, and nothing else in the state of the merge changes. -/
structure Fills (m m' : Merge α) : Prop where
  slot_eq : ∀ j x, m.slot j = some x → m'.slot j = some x
  last_eq : m'.last = m.last

theorem Fills.refl (m : Merge α) : Fills m m := ⟨fun _ _ h => h, rfl⟩

theorem Fills.trans {m m' m'' : Merge α} (h : Fills m m') (h' : Fills m' m'') : Fills m m'' :=
  ⟨fun j x hj => h'.slot_eq j x (h.slot_eq j x hj), h'.last_eq.trans h.last_eq⟩

variable {ch : Children σ α} {s : σ} {m : Merge α} {rows : List (List α)}

theorem Rows.self_get (h : Rows ch s m rows) : ch.self.get s = m := by
  obtain ⟨xss, hxss, -⟩ := h.holds
  exact ch.self_get hxss

/-- A full slot holds the head of its row. -/
theorem Rows.head?_of_slot (h : Rows ch s m rows) {i : Nat} {row : List α}
    (hrow : rows[i]? = some row) {x : α} (hx : m.slot i = some x) : row.head? = some x := by
  obtain ⟨xss, -, hrows⟩ := h.holds
  obtain ⟨xs, -, rfl⟩ := hrows i row hrow
  rw [hx]
  rfl

/-- At the start the rows are what the sources deliver. -/
theorem rows_start {xss : List (List α)} (h : ch.Holds s (start xss.length) xss) :
    Rows ch s (start xss.length) xss where
  length_slots := by simp [start]
  length_sources := (ch.length_eq h).symm
  holds := by
    refine ⟨xss, h, fun i row hrow => ⟨row, hrow, ?_⟩⟩
    rw [slot_start]
    rfl

theorem Fills.putSlot {i : Nat} (hslot : m.slot i = none) (x : α) :
    Fills m (m.putSlot i (some x)) where
  slot_eq j y hj := by
    by_cases hij : i = j
    · subst hij
      rw [hslot] at hj
      exact absurd hj (by simp)
    · rw [slot_putSlot_ne hij, hj]
  last_eq := rfl

/-- Moving an element from its source into the slot changes no row. -/
theorem Rows.putSlot (h : Rows ch s m rows) {s' : σ} {xss : List (List α)} {i : Nat} {x : α}
    {xs : List α} (hrow : rows[i]? = some (x :: xs)) (hxs : xss[i]? = some (x :: xs))
    (hrows : ∀ j row, rows[j]? = some row →
      ∃ ys, xss[j]? = some ys ∧ row = (m.slot j).toList ++ ys)
    (hs' : ch.Holds s' (m.putSlot i (some x)) (xss.set i xs)) :
    Rows ch s' (m.putSlot i (some x)) rows := by
  have hi : i < m.slots.length := by
    rw [h.length_slots]
    exact (List.getElem?_eq_some_iff.mp hrow).1
  have hlt : i < xss.length := (List.getElem?_eq_some_iff.mp hxs).1
  refine ⟨by rw [length_slots_putSlot, h.length_slots], h.length_sources, _, hs', ?_⟩
  intro j row hj
  by_cases hij : i = j
  · subst hij
    obtain rfl : x :: xs = row := by rw [hrow, Option.some.injEq] at hj; exact hj
    exact ⟨xs, List.getElem?_set_self hlt, by rw [slot_putSlot_self hi]; rfl⟩
  · rw [List.getElem?_set_ne hij, slot_putSlot_ne hij]
    exact hrows j row hj

/-- Taking an element out of its slot takes off the head of its row. -/
theorem Rows.vacated (h : Rows ch s m rows) {m' : Merge α} {i : Nat} {x : α} {rest : List α}
    (hrow : rows[i]? = some (x :: rest)) (hslot : m.slot i = some x)
    (hm' : m'.slots = (m.putSlot i none).slots) :
    Rows ch (ch.self.set m' s) m' (rows.set i rest) := by
  obtain ⟨xss, hxss, hrows⟩ := h.holds
  have hi : i < rows.length := (List.getElem?_eq_some_iff.mp hrow).1
  have hsame : ∀ j, m'.slot j = (m.putSlot i none).slot j := by
    intro j
    unfold slot
    rw [hm']
  refine ⟨?_, ?_, xss, ch.self_set hxss m', ?_⟩
  · rw [hm', length_slots_putSlot, List.length_set, h.length_slots]
  · rw [List.length_set, h.length_sources]
  · intro j row hj
    rw [hsame]
    by_cases hij : i = j
    · subst hij
      rw [List.getElem?_set_self hi, Option.some.injEq] at hj
      subst hj
      obtain ⟨xs, hxs, hsplit⟩ := hrows i _ hrow
      rw [hslot] at hsplit
      have hrest : rest = xs := (List.cons.inj hsplit).2
      exact ⟨xs, hxs, by rw [slot_putSlot_self (by rw [h.length_slots]; exact hi), hrest]; rfl⟩
    · rw [List.getElem?_set_ne hij] at hj
      rw [slot_putSlot_ne hij]
      exact hrows j row hj

/-- A slot that says what its row gives next keeps saying so. -/
theorem Rows.slot_of_fills {m' : Merge α} (h : Rows ch s m' rows) (hfills : Fills m m') {i : Nat}
    {row : List α} (hrow : rows[i]? = some row) (hslot : m.slot i = row.head?) :
    m'.slot i = row.head? := by
  cases hhead : row.head? with
  | some x => exact hfills.slot_eq i x (hslot.trans hhead)
  | none =>
      cases hm : m'.slot i with
      | none => rfl
      | some y =>
          rw [h.head?_of_slot hrow hm] at hhead
          exact absurd hhead (by simp)

/-- Filling a slot tells whether its row is not empty. -/
theorem Rows.fill (h : Rows ch s m rows) {i : Nat} {source : Forward σ α} {row : List α}
    (hsource : ch.sources[i]? = some source) (hrow : rows[i]? = some row) :
    ∃ s' m', fill ch.self i source s = .value (!row.isEmpty) s' ∧ Rows ch s' m' rows
      ∧ Fills m m' ∧ m'.slot i = row.head? := by
  obtain ⟨xss, hxss, hrows⟩ := h.holds
  obtain ⟨xs, hxs, hsplit⟩ := hrows i row hrow
  cases hslot : m.slot i with
  | some x =>
      have hhead := h.head?_of_slot hrow hslot
      have hne : row.isEmpty = false := by
        cases row with
        | nil => exact absurd hhead (by simp)
        | cons y ys => rfl
      refine ⟨s, m, ?_, h, .refl m, hslot.trans hhead.symm⟩
      simp only [Merge.fill, Act.bind_apply, Field.read_apply, h.self_get, hslot, hne]
      rfl
  | none =>
      -- All of the row is still to be delivered by the source, which is asked now.
      rw [hslot] at hsplit
      obtain rfl : row = xs := hsplit
      obtain ⟨s₁, hmore, hs₁⟩ := ch.hasNext_apply hxss hsource hxs
      have hself₁ : ch.self.get s₁ = m := ch.self_get hs₁
      cases row with
      | nil =>
          refine ⟨s₁, m, ?_, ⟨h.length_slots, h.length_sources, xss, hs₁, hrows⟩, .refl m, hslot⟩
          simp only [Merge.fill, Act.bind_apply, Field.read_apply, h.self_get, hslot,
            Option.isSome_none, Bool.false_eq_true, if_false, hmore, List.isEmpty_nil,
            Bool.not_true]
          simp only [hself₁, hslot]
          rfl
      | cons x xs =>
          obtain ⟨s₂, hnext, hs₂⟩ := ch.next_apply hs₁ hsource hxs
          have hself₂ : ch.self.get s₂ = m := ch.self_get hs₂
          have hs₃ := ch.self_set hs₂ (m.putSlot i (some x))
          have hi : i < m.slots.length := by
            rw [h.length_slots]
            exact (List.getElem?_eq_some_iff.mp hrow).1
          have hput := slot_putSlot_self hi (some x)
          refine ⟨ch.self.set (m.putSlot i (some x)) s₂, m.putSlot i (some x), ?_,
            h.putSlot hrow hxs hrows hs₃, .putSlot hslot x, hput⟩
          simp only [Merge.fill, Act.bind_apply, Field.read_apply, Field.modify_apply,
            h.self_get, hslot, Option.isSome_none, Bool.false_eq_true, if_false, hmore,
            List.isEmpty_cons, Bool.not_false, if_true, hnext, hself₂]
          rw [show ({ m with slots := m.slots.set i (some x) } : Merge α)
            = m.putSlot i (some x) from rfl, ch.self_get hs₃, hput]
          rfl

/-! ## §3. The pass. -/

theorem of_drop_eq_cons {β : Type} {l l' : List β} {i : Nat} {a : β} (h : l.drop i = a :: l') :
    l[i]? = some a ∧ l.drop (i + 1) = l' := by
  constructor
  · rw [← List.head?_drop, h]
    rfl
  · rw [← List.drop_drop, h]
    rfl

/-- The comparison that comes to `lt a b` and changes nothing. -/
def weigh (lt : α → α → Bool) (a b : α) : Act σ Bool := pure (lt a b)

/-- The leftmost of the least among `best` and the heads of the rows, which are counted from `i`
on. -/
def pick (lt : α → α → Bool) : List (List α) → Nat → Option (Nat × α) → Option (Nat × α)
  | [], _, best => best
  | [] :: rows, i, best => pick lt rows (i + 1) best
  | (x :: _) :: rows, i, none => pick lt rows (i + 1) (some (i, x))
  | (x :: _) :: rows, i, some (j, y) =>
      pick lt rows (i + 1) (if lt x y then some (i, x) else some (j, y))

variable {lt : α → α → Bool}

/-- What is picked was the best before, or is the head of a row. -/
theorem pick_mem {i j : Nat} {x : α} {best : Option (Nat × α)}
    (h : pick lt rows i best = some (j, x)) :
    best = some (j, x) ∨ ∃ k rest, j = i + k ∧ rows[k]? = some (x :: rest) := by
  induction rows generalizing i best with
  | nil => exact .inl h
  | cons row rows ih =>
      have hshift : (∃ k rest, j = i + 1 + k ∧ rows[k]? = some (x :: rest)) →
          ∃ k rest, j = i + k ∧ (row :: rows)[k]? = some (x :: rest) := by
        rintro ⟨k, rest, hj, hk⟩
        exact ⟨k + 1, rest, by omega, hk⟩
      match row, best with
      | [], best =>
          rcases ih h with hbest | hrow
          · exact .inl hbest
          · exact .inr (hshift hrow)
      | y :: ys, none =>
          rcases ih h with hbest | hrow
          · simp only [Option.some.injEq, Prod.mk.injEq] at hbest
            obtain ⟨rfl, rfl⟩ := hbest
            exact .inr ⟨0, ys, rfl, rfl⟩
          · exact .inr (hshift hrow)
      | y :: ys, some (k, w) =>
          rw [pick] at h
          rcases ih h with hbest | hrow
          · split at hbest
            · simp only [Option.some.injEq, Prod.mk.injEq] at hbest
              obtain ⟨rfl, rfl⟩ := hbest
              exact .inr ⟨0, ys, rfl, rfl⟩
            · exact .inl hbest
          · exact .inr (hshift hrow)

theorem row_of_pick {i : Nat} {x : α} (h : pick lt rows 0 none = some (i, x)) :
    ∃ rest, rows[i]? = some (x :: rest) := by
  rcases pick_mem h with hnone | ⟨k, rest, hk, hrow⟩
  · exact absurd hnone (by simp)
  · rw [Nat.zero_add] at hk
    exact ⟨rest, hk ▸ hrow⟩

section

variable [Inhabited α]

/-- The pass fills the slots from `i` on and finds what `pick` finds among the rows. -/
theorem Rows.scan (h : Rows ch s m rows) (lt : α → α → Bool) {i : Nat}
    {sources : List (Forward σ α)} (hsources : ch.sources.drop i = sources)
    (best : Option (Nat × α)) :
    ∃ s' m', scan ch.self (weigh lt) sources i best s
        = .value (pick lt (rows.drop i) i best) s'
      ∧ Rows ch s' m' rows ∧ Fills m m'
      ∧ ∀ j row, i ≤ j → rows[j]? = some row → m'.slot j = row.head? := by
  induction sources generalizing i s m best with
  | nil =>
      have hend : rows.drop i = [] := by
        rw [List.drop_eq_nil_iff] at hsources ⊢
        rw [← h.length_sources]
        exact hsources
      refine ⟨s, m, by rw [hend]; rfl, h, .refl m, fun j row hj hrow => ?_⟩
      have hlt := (List.getElem?_eq_some_iff.mp hrow).1
      rw [List.drop_eq_nil_iff] at hend
      omega
  | cons source sources ih =>
      obtain ⟨hsource, hrest⟩ := of_drop_eq_cons hsources
      have hi : i < rows.length := by
        rw [← h.length_sources]
        exact (List.getElem?_eq_some_iff.mp hsource).1
      have hdrop : rows.drop i = rows[i] :: rows.drop (i + 1) := List.drop_eq_getElem_cons hi
      have hrow : rows[i]? = some rows[i] := List.getElem?_eq_getElem hi
      obtain ⟨s₁, m₁, hfill, h₁, hfills₁, hslot⟩ := h.fill hsource hrow
      -- Whatever is the best so far, the rest of the pass goes on from the filled slot.
      have hgo : ∀ best', ∃ s' m', Merge.scan ch.self (weigh lt) sources (i + 1) best' s₁
            = .value (pick lt (rows.drop (i + 1)) (i + 1) best') s'
          ∧ Rows ch s' m' rows ∧ Fills m m'
          ∧ ∀ j row, i ≤ j → rows[j]? = some row → m'.slot j = row.head? := by
        intro best'
        obtain ⟨s₂, m₂, hscan, h₂, hfills₂, hslots⟩ := ih h₁ hrest best'
        refine ⟨s₂, m₂, hscan, h₂, hfills₁.trans hfills₂, fun j row hj hrow' => ?_⟩
        by_cases hij : i = j
        · subst hij
          obtain rfl : rows[i] = row := by rw [hrow, Option.some.injEq] at hrow'; exact hrow'
          exact h₂.slot_of_fills hfills₂ hrow hslot
        · exact hslots j row (by omega) hrow'
      rw [hdrop]
      match hcase : rows[i] with
      | [] =>
          rw [hcase] at hfill
          simp only [Merge.scan, Act.bind_apply, hfill, List.isEmpty_nil, Bool.not_true,
            Bool.false_eq_true, if_false, pick]
          exact hgo best
      | x :: xs =>
          rw [hcase] at hfill hslot
          have hhead : (m₁.slot i).getD default = x := by rw [hslot]; rfl
          match best with
          | none =>
              simp only [Merge.scan, Act.bind_apply, hfill, List.isEmpty_cons, Bool.not_false,
                if_true, Act.pure_apply, Field.read_apply, h₁.self_get, hhead, pick]
              exact hgo _
          | some (j, y) =>
              simp only [Merge.scan, Act.bind_apply, hfill, List.isEmpty_cons, Bool.not_false,
                if_true, Field.read_apply, h₁.self_get, hhead, pick, weigh, Act.pure_apply]
              by_cases hlt : lt x y
              · simp only [hlt, if_true, Act.bind_apply, Field.read_apply, h₁.self_get, hhead]
                exact hgo _
              · simp only [hlt, if_false, Bool.false_eq_true]
                exact hgo _

/-! ## §4. The operations. -/

/-- The next element is the head that is picked among the rows. -/
theorem Rows.next_of_pick (h : Rows ch s m rows) {i : Nat} {x : α}
    (hpick : pick lt rows 0 none = some (i, x)) :
    ∃ rest s' m', rows[i]? = some (x :: rest) ∧ next ch.self ch.sources (weigh lt) s = .value x s'
      ∧ Rows ch s' m' (rows.set i rest) ∧ m'.last = some i := by
  obtain ⟨rest, hrow⟩ := row_of_pick hpick
  obtain ⟨s₁, m₁, hscan, h₁, -, hslots⟩ := h.scan lt List.drop_zero none
  rw [List.drop_zero, hpick] at hscan
  have hslot : m₁.slot i = some x := hslots i _ (Nat.zero_le i) hrow
  let m₂ : Merge α := { slots := m₁.slots.set i none, last := some i, removable := true }
  refine ⟨rest, ch.self.set m₂ s₁, m₂, hrow, ?_, h₁.vacated hrow hslot rfl, rfl⟩
  simp only [next, Act.bind_apply, hscan, Field.read_apply, Field.modify_apply, h₁.self_get,
    hslot]
  rfl

/-- Without any head the merge has ended. -/
theorem Rows.next_of_pick_none (h : Rows ch s m rows) (hpick : pick lt rows 0 none = none) :
    ∃ s' m', next ch.self ch.sources (weigh lt) s = .failure .ended s' ∧ Rows ch s' m' rows := by
  obtain ⟨s₁, m₁, hscan, h₁, -, -⟩ := h.scan lt List.drop_zero none
  rw [List.drop_zero, hpick] at hscan
  refine ⟨s₁, m₁, ?_, h₁⟩
  simp only [next, Act.bind_apply, hscan, Act.fail_apply]

end

/-- Asking the sources from the `i`-th one on, with all slots empty. -/
theorem Rows.anyHasNext (h : Rows ch s m rows) (hslots : ∀ j, m.slot j = none) {i : Nat}
    {sources : List (Forward σ α)} (hsources : ch.sources.drop i = sources) :
    ∃ s', anyHasNext sources s = .value ((rows.drop i).any fun row => !row.isEmpty) s'
      ∧ Rows ch s' m rows := by
  induction sources generalizing i s with
  | nil =>
      have hend : rows.drop i = [] := by
        rw [List.drop_eq_nil_iff] at hsources ⊢
        rw [← h.length_sources]
        exact hsources
      exact ⟨s, by rw [hend]; rfl, h⟩
  | cons source sources ih =>
      obtain ⟨hsource, hrest⟩ := of_drop_eq_cons hsources
      have hi : i < rows.length := by
        rw [← h.length_sources]
        exact (List.getElem?_eq_some_iff.mp hsource).1
      have hdrop : rows.drop i = rows[i] :: rows.drop (i + 1) := List.drop_eq_getElem_cons hi
      obtain ⟨xss, hxss, hrows⟩ := h.holds
      obtain ⟨xs, hxs, hsplit⟩ := hrows i _ (List.getElem?_eq_getElem hi)
      rw [hslots i] at hsplit
      have hrow : rows[i] = xs := hsplit
      obtain ⟨s₁, hmore, hs₁⟩ := ch.hasNext_apply hxss hsource hxs
      have h₁ : Rows ch s₁ m rows := ⟨h.length_slots, h.length_sources, xss, hs₁, hrows⟩
      have hsealed : source.hasNext.sealed s = .value (!xs.isEmpty) s₁ := by
        rw [Act.sealed, hmore]
      rw [hdrop, hrow]
      match xs with
      | [] =>
          obtain ⟨s₂, hany, h₂⟩ := ih h₁ hrest
          refine ⟨s₂, ?_, h₂⟩
          simp only [Merge.anyHasNext, Act.bind_apply, hsealed]
          exact hany
      | x :: xs =>
          refine ⟨s₁, ?_, h₁⟩
          simp only [Merge.anyHasNext, Act.bind_apply, hsealed]
          rfl

/-- There is a further element if a row is not empty. -/
theorem Rows.hasNext (h : Rows ch s m rows) :
    ∃ s', hasNext ch.self ch.sources s = .value (rows.any fun row => !row.isEmpty) s'
      ∧ Rows ch s' m rows := by
  by_cases hany : m.slots.any Option.isSome
  · -- A full slot answers the question without any source.
    obtain ⟨o, ho, hsome⟩ := List.any_eq_true.mp hany
    obtain ⟨j, hj, rfl⟩ := List.getElem_of_mem ho
    obtain ⟨x, hx⟩ := Option.isSome_iff_exists.mp hsome
    have hslot : m.slot j = some x := by
      rw [slot, List.getElem?_eq_getElem hj, hx]
      rfl
    have hlt : j < rows.length := by rw [← h.length_slots]; exact hj
    have hhead := h.head?_of_slot (List.getElem?_eq_getElem hlt) hslot
    have hrow : (rows.any fun row => !row.isEmpty) = true := by
      refine List.any_eq_true.mpr ⟨rows[j], List.getElem_mem hlt, ?_⟩
      match rows[j], hhead with
      | y :: ys, _ => rfl
    refine ⟨s, ?_, h⟩
    simp only [Merge.hasNext, Act.bind_apply, Field.read_apply, h.self_get, hany, if_true, hrow]
    rfl
  · obtain ⟨s', hask, h'⟩ := h.anyHasNext (slot_eq_none_of_any hany) List.drop_zero
    refine ⟨s', ?_, h'⟩
    simp only [Merge.hasNext, Act.bind_apply, Field.read_apply, h.self_get, hany,
      Bool.false_eq_true, if_false]
    exact hask

theorem Rows.lastIndex (h : Rows ch s m rows) {i : Nat} (hi : m.last = some i) :
    lastIndex ch.self s = .value i s := by
  simp only [Merge.lastIndex, Act.bind_apply, Field.read_apply, h.self_get, hi]
  rfl

end Merge

end Cursors
