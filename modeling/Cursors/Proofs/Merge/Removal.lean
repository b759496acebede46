/-
  Cursors.Proofs.Merge.Removal
  ────────────────────────────
  **A MERGE REMOVES WHAT IT GAVE LAST, UNLESS A COMPARISON FAILED.**

  A merge over cursors in distinct lists comes to what its stock says, call
  by call (`obeys`).  With a comparator that never fails it comes to what
  the docket says, although it reads ahead (`runs_as_docket`).

  A comparison that fails leaves a pass half done.  If the pass had read on
  in the list that gave the last element by then, the cursor there has
  crossed an element that was not given yet, and a removal takes that one
  away (`spares_iff_slot_empty`).
-/
import Mathlib.Data.List.OfFn
import Cursors.Proofs.Ending.Merge
import Cursors.Proofs.Chain.Leaf
import Cursors.Proofs.Merge.Stock

namespace Cursors.Merge

variable {N : Nat} {α : Type}

/-! ## §1. Cursors that may have crossed an element before. -/

/-- A cursor in a list. -/
def reading : Forward (Cursor × List α) α := (Cursor.twoWay .left (.ofList .right)).toForward

/-- The list and the cursor of a reader. -/
def Reader.state (r : Reader α) : Cursor × List α :=
  ({ position := .plain r.behind.length, last := r.crossed }, r.items)

/-- The same cursor, which has not crossed anything. -/
def forgotten (s : Cursor × List α) : Cursor × List α := ({ s.1 with last := none }, s.2)

/-- The cursor stands where the tally says, and can remove what it crossed if the tally says so. -/
def Stands (s : Cursor × List α) (t : Tally α) : Prop :=
  ∃ bound past ahead, Tally.Leaf bound past ahead s t

/-- The cursor stands where the tally says; what it crossed before does not count. -/
def StandsBy (s : Cursor × List α) (t : Tally α) : Prop :=
  Stands s t ∨ t.held = false ∧ Stands (forgotten s) t

section

variable {s : Cursor × List α} {t : Tally α} {x : α}

theorem hasNext_reading (s : Cursor × List α) :
    reading.hasNext s = .value (decide (s.1.position.toInt < s.2.length)) s := rfl

theorem coming_isSome (t : Tally α) : t.coming.isSome = decide (t.given < t.size) := by
  cases hcoming : t.coming with
  | none => exact (decide_eq_false (Nat.not_lt.mpr (Tally.coming_eq_none_iff.mp hcoming))).symm
  | some x =>
      have hlt : t.given < t.size := by
        by_contra hnot
        rw [Tally.coming_eq_none_iff.mpr (Nat.not_lt.mp hnot)] at hcoming
        cases hcoming
      exact (decide_eq_true hlt).symm

theorem hasNext_of_standsBy (h : StandsBy s t) : reading.hasNext s = .value t.coming.isSome s := by
  have hmore : decide (s.1.position.toInt < s.2.length) = decide (t.given < t.size) := by
    obtain hstands | ⟨-, hstands⟩ := h
    · obtain ⟨s', hask, -⟩ := tallied_cursor.hasNext hstands
      exact (Outcome.value.inj ((hasNext_reading s).symm.trans hask)).1
    · obtain ⟨s', hask, -⟩ := tallied_cursor.hasNext hstands
      exact (Outcome.value.inj ((hasNext_reading (forgotten s)).symm.trans hask)).1
  rw [hasNext_reading, hmore, coming_isSome]

theorem next_reading (s : Cursor × List α) :
    reading.next s =
      if s.1.position.toInt ≥ s.2.length then .failure .ended s
      else match (Place.index? s.2.length s.1.position.toInt).bind (s.2[·]?) with
        | some x =>
            .value x ({ position := s.1.position.following, last := some s.1.position }, s.2)
        | none => .failure (.refused .index) s := by
  obtain ⟨⟨position, last⟩, xs⟩ := s
  show Cursor.next .left (.ofList .right) _ = _
  simp only [Cursor.next, Act.bind_apply, Field.read_apply, Sequence.ofList, Act.reading_apply,
    Field.left, Field.right]
  split
  · rfl
  · cases hx : (Place.index? xs.length position.toInt).bind (xs[·]?) <;>
      simp only [Act.bind_apply, Field.read_apply, hx] <;> rfl

/-- What was crossed before the first move does not show after it. -/
theorem next_of_forgotten {s' : Cursor × List α} (h : reading.next (forgotten s) = .value x s') :
    reading.next s = .value x s' := by
  obtain ⟨⟨position, last⟩, xs⟩ := s
  unfold forgotten at h
  rw [next_reading] at h ⊢
  by_cases hend : position.toInt ≥ xs.length
  · rw [if_pos hend] at h
    cases h
  · rw [if_neg hend] at h ⊢
    cases hx : (Place.index? xs.length position.toInt).bind (xs[·]?) with
    | none =>
        rw [hx] at h
        cases h
    | some y =>
        rw [hx] at h
        exact h

theorem next_of_standsBy (h : StandsBy s t) (hx : t.coming = some x) :
    ∃ s', reading.next s = .value x s' ∧ Stands s' t.passed := by
  obtain hstands | ⟨-, hstands⟩ := h
  · exact tallied_cursor.next_some hstands hx
  · obtain ⟨s', hnext, hstands'⟩ := tallied_cursor.next_some hstands hx
    exact ⟨s', next_of_forgotten hnext, hstands'⟩

theorem remove_of_held (h : Stands s t) (hheld : t.held = true) :
    ∃ s', reading.remove s = .value () s' ∧ Stands s' t.cleared :=
  tallied_cursor.remove h hheld

theorem remove_of_not_held (h : Stands s t) (hheld : t.held = false) :
    reading.remove s = .failure (.notMoved .remove true) s := by
  obtain ⟨bound, past, ahead, hleaf⟩ := h
  refine Cursor.remove_of_untouched hleaf.here_get ?_
  rw [hheld]
  rfl

theorem left_of_standsBy (h : StandsBy s t) : [s.2] = t.left := by
  obtain hstands | ⟨-, hstands⟩ := h
  · exact tallied_cursor.lists_eq hstands
  · show [(forgotten s).2] = t.left
    exact tallied_cursor.lists_eq hstands

/-- A reader stands behind its first elements. -/
theorem standsBy_state (r : Reader α) :
    StandsBy r.state ⟨[r.items.map ({ item := · })], r.behind.length, false⟩ :=
  .inr ⟨rfl, _, _, _, Tally.leaf_at r.behind r.ahead⟩

end

/-! ## §2. The merge shows a stock. -/

/-- The cursor in the `i`-th list. -/
def cursorAt (i : Fin N) : Forward (Node (Merge α) fun _ : Fin N => Cursor × List α) α :=
  reading.within (Node.child i)

/-- A merge over cursors in lists. -/
def overLists [Inhabited α] (precedes : Nat → α → α → Except Failure Bool) :
    Forward (Node (Merge α) fun _ : Fin N => Cursor × List α) α :=
  upon (fun _ => reading) precedes

namespace Stock

/-- What was read of the `i`-th list. -/
def tally (t : Stock N α) (i : Fin N) : Tally α := ⟨[t.rows i], t.taken i, t.loose i⟩

/-- The merge is in the state that the stock says, over cursors that stand where it says. -/
structure Shown (n : Node (Merge α) fun _ : Fin N => Cursor × List α) (t : Stock N α) : Prop where
  self_eq : n.self = t.merge
  calls_eq : n.calls = t.calls
  below : ∀ i, StandsBy (n.below i) (t.tally i)
  touched : ∀ i, t.ahead i = true ∨ t.due = some i → Stands (n.below i) (t.tally i)
  sane : t.Sane

variable {n : Node (Merge α) fun _ : Fin N => Cursor × List α} {t : Stock N α} {i j : Fin N}
  {x : α}

theorem coming_tally (h : t.ahead i = false) : (t.tally i).coming = t.coming i := by
  show [t.rows i].flatten[t.taken i]?.map Entry.item = _
  rw [List.flatten_singleton, taken, h]
  rfl

theorem slot_merge (t : Stock N α) (i : Fin N) : t.merge.slot i = t.slot i := by
  rw [Merge.slot, merge, List.getElem?_ofFn, dif_pos i.isLt]
  rfl

theorem set_ofFn {β : Type} (f : Fin N → β) (i : Fin N) (b : β) :
    (List.ofFn f).set i b = List.ofFn (Function.update f i b) := by
  refine List.ext_getElem (by simp) fun k hk hk' => ?_
  rw [List.getElem_set, List.getElem_ofFn, List.getElem_ofFn, Function.update_apply]
  simp only [Fin.ext_iff, eq_comm]

/-! ### Filling a slot. -/

theorem slots_merge_fetched (hahead : t.ahead i = false) (hx : t.coming i = some x) :
    (t.fetched i).merge = { t.merge with slots := t.merge.slots.set i (some x) } := by
  have hslot : (t.fetched i).slot = Function.update t.slot i (some x) := by
    funext j
    by_cases hji : j = i
    · subst hji
      rw [slot_fetched_self, hx, Function.update_self]
    · rw [slot_fetched_ne t hji, Function.update_of_ne hji]
  show Merge.mk (List.ofFn (t.fetched i).slot) _ _ = _
  rw [hslot, toDocket_fetched, ← set_ofFn]
  rfl

theorem tally_fetched_self (hahead : t.ahead i = false) (hx : t.coming i = some x) :
    (t.fetched i).tally i = (t.tally i).passed := by
  rw [fetched_of_some hahead hx]
  show Tally.mk [t.rows i] (t.given i + (Function.update t.ahead i true i).toNat)
    (Function.update t.loose i true i) = Tally.mk [t.rows i] (t.taken i + 1) true
  rw [Function.update_self, Function.update_self, taken, hahead]
  rfl

theorem tally_fetched_ne (t : Stock N α) (h : j ≠ i) : (t.fetched i).tally j = t.tally j := by
  unfold fetched
  split
  · rfl
  · show Tally.mk [t.rows j] (t.given j + (Function.update t.ahead i true j).toNat)
      (Function.update t.loose i true j) = _
    rw [Function.update_of_ne h, Function.update_of_ne h]
    rfl

section

variable {σ : Type} {self : Field σ (Merge α)} {source : Forward σ α} {s s₁ s₂ : σ} {k : Nat}

theorem fill_of_full (h : ((self.get s).slot k).isSome = true) :
    fill self k source s = .value true s := by
  simp only [fill, Act.bind_apply, Field.read_apply, h, if_true]
  rfl

theorem fill_of_exhausted (h : (self.get s).slot k = none)
    (hask : source.hasNext s = .value false s) :
    fill self k source s = .value false s := by
  simp only [fill, Act.bind_apply, Field.read_apply, h, Option.isSome_none, Bool.false_eq_true,
    if_false, hask]
  rfl

theorem fill_of_more (h : (self.get s).slot k = none) (hask : source.hasNext s = .value true s₁)
    (hnext : source.next s₁ = .value x s₂) {m : Merge α}
    (hm : { self.get s₂ with slots := (self.get s₂).slots.set k (some x) } = m)
    (hfull : ((self.get (self.set m s₂)).slot k).isSome = true) :
    fill self k source s = .value true (self.set m s₂) := by
  subst hm
  simp only [fill, Act.bind_apply, Field.read_apply, h, Option.isSome_none, Bool.false_eq_true,
    if_false, hask, if_true, hnext, Field.modify_apply]
  exact congrArg (Outcome.value · _) hfull

end

/-- A cursor of which nothing is held ahead is asked for the next element of its list. -/
theorem Shown.hasNext_below (h : Shown n t) (hahead : t.ahead i = false) :
    (cursorAt i).hasNext n = .value (t.coming i).isSome n := by
  have hbelow := hasNext_of_standsBy (h.below i)
  rw [coming_tally hahead] at hbelow
  have hwithin : (cursorAt i).hasNext n
      = .value (t.coming i).isSome ((Node.child i).set (n.below i) n) :=
    Act.within_of (s := n) (x := reading.hasNext) (r := .ok (t.coming i).isSome) hbelow
  exact hwithin.trans (congrArg (Outcome.value _) (Node.child_set_get n i))

/-- Filling a slot, as the stock says. -/
theorem Shown.fill (h : Shown n t) (i : Fin N) :
    ∃ n', Merge.fill Node.own i.val (cursorAt i) n
        = .value (t.coming i).isSome n' ∧ Shown n' (t.fetched i) := by
  have hslot : (Node.own.get n).slot i.val = t.slot i := by
    rw [← slot_merge, ← h.self_eq]
    rfl
  cases hahead : t.ahead i with
  | true =>
      have hsome := h.sane.coming hahead
      have hfull : ((Node.own.get n).slot i.val).isSome = true := by
        rw [hslot, slot, hahead]
        exact hsome
      refine ⟨n, ?_, ?_⟩
      · rw [fill_of_full hfull, hsome]
      · rw [fetched_of_ahead hahead]
        exact h
  | false =>
      have hempty : (Node.own.get n).slot i.val = none := by
        rw [hslot, slot, hahead]
        rfl
      have hask := h.hasNext_below hahead
      cases hcoming : t.coming i with
      | none =>
          rw [hcoming] at hask
          refine ⟨n, fill_of_exhausted hempty hask, ?_⟩
          rw [fetched_of_none hcoming]
          exact h
      | some x =>
          rw [hcoming] at hask
          obtain ⟨s', hnext, hstands⟩ := next_of_standsBy (h.below i)
            ((coming_tally hahead).trans hcoming)
          have hstep : (cursorAt i).next n
              = .value x ((Node.child i).set s' n) :=
            Act.within_of (s := n) (x := reading.next) (r := .ok x) hnext
          rw [← tally_fetched_self hahead hcoming] at hstands
          let n' := Node.own.set (t.fetched i).merge ((Node.child i).set s' n)
          have hself : n'.below i = s' := Node.below_child_set_self n i s'
          have hother : ∀ {j}, j ≠ i → n'.below j = n.below j := fun hji =>
            Node.below_child_set_of_ne n s' hji
          refine ⟨n', fill_of_more hempty hask hstep ?_ ?_, rfl, ?_, fun j => ?_, fun j hj => ?_,
            h.sane.fetched i⟩
          · rw [slots_merge_fetched hahead hcoming, ← h.self_eq]
            rfl
          · show ((t.fetched i).merge.slot i).isSome = true
            rw [slot_merge, slot_fetched_self, hcoming]
            rfl
          · rw [toDocket_fetched]
            exact h.calls_eq
          · by_cases hji : j = i
            · subst hji
              rw [hself]
              exact .inl hstands
            · rw [hother hji, tally_fetched_ne t hji]
              exact h.below j
          · by_cases hji : j = i
            · subst hji
              rw [hself]
              exact hstands
            · rw [hother hji, tally_fetched_ne t hji]
              refine h.touched j (hj.imp (fun hahead' => ?_) fun hdue => ?_)
              · rw [fetched_of_some hahead hcoming] at hahead'
                exact (Function.update_of_ne hji true t.ahead).symm.trans hahead'
              · rwa [toDocket_fetched] at hdue

/-! ### The pass. -/

section

variable [Inhabited α] {σ : Type} {self : Field σ (Merge α)} {ask : α → α → Act σ Bool}
  {source : Forward σ α} {rest : List (Forward σ α)} {k : Nat} {best : Option (Nat × α)}
  {least : Nat × α} {s s₁ s₂ : σ}

theorem scan_of_empty (hfill : fill self k source s = .value false s₁) :
    scan self ask (source :: rest) k best s = scan self ask rest (k + 1) best s₁ := by
  simp only [scan, Act.bind_apply, hfill, Bool.false_eq_true, if_false]

theorem scan_of_first (hfill : fill self k source s = .value true s₁)
    (hslot : (self.get s₁).slot k = some x) :
    scan self ask (source :: rest) k none s = scan self ask rest (k + 1) (some (k, x)) s₁ := by
  simp only [scan, Act.bind_apply, hfill, if_true, Act.pure_apply, Field.read_apply, hslot,
    Option.getD_some]

theorem scan_of_compared (hfill : fill self k source s = .value true s₁)
    (hslot : (self.get s₁).slot k = some x) {better : Bool}
    (hcompare : ask x least.2 s₁ = .value better s₂) (hslot₂ : (self.get s₂).slot k = some x) :
    scan self ask (source :: rest) k (some least) s
      = scan self ask rest (k + 1) (if better then some (k, x) else some least) s₂ := by
  simp only [scan, Act.bind_apply, hfill, if_true, Field.read_apply, hslot, Option.getD_some,
    hcompare]
  cases better with
  | true => simp only [if_true, Act.bind_apply, Field.read_apply, hslot₂, Option.getD_some]
  | false => simp only [Bool.false_eq_true, if_false]

theorem scan_of_failed (hfill : fill self k source s = .value true s₁)
    (hslot : (self.get s₁).slot k = some x) {e : Failure}
    (hcompare : ask x least.2 s₁ = .failure e s₂) :
    scan self ask (source :: rest) k (some least) s = .failure e s₂ := by
  simp only [scan, Act.bind_apply, hfill, if_true, Field.read_apply, hslot, Option.getD_some,
    hcompare]

end

/-- An element with the number of its list. -/
def numbered (found : Fin N × α) : Nat × α := (found.1.val, found.2)

theorem Shown.counted (h : Shown n t) : Shown { n with calls := n.calls + 1 } t.counted :=
  ⟨h.self_eq, congrArg (· + 1) h.calls_eq, h.below, h.touched, h.sane.counted⟩

/-- A pass over the cursors, as the stock says. -/
theorem Shown.scan [Inhabited α] (h : Shown n t) (precedes : Nat → α → α → Except Failure Bool)
    {k : Nat} {names : List (Fin N)} (hnames : (List.finRange N).drop k = names)
    (best : Option (Fin N × α)) :
    ∃ n', Merge.scan Node.own (compare precedes)
          (names.map cursorAt) k (best.map numbered) n
        = .of ((t.pass precedes names best).1.map (Option.map numbered)) n'
      ∧ Shown n' (t.pass precedes names best).2 := by
  induction names generalizing k n t best with
  | nil => exact ⟨n, rfl, h⟩
  | cons i names ih =>
      obtain ⟨hi, hrest⟩ := of_drop_eq_cons hnames
      obtain rfl : i.val = k := val_of_finRange hi
      obtain ⟨n₁, hfill, h₁⟩ := h.fill i
      have hslot : (Node.own.get n₁).slot i.val = t.coming i := by
        rw [← slot_fetched_self, ← slot_merge, ← h₁.self_eq]
        rfl
      rw [List.map_cons]
      cases hcoming : t.coming i with
      | none =>
          rw [hcoming] at hfill
          rw [scan_of_empty hfill, pass_of_none hcoming]
          exact ih h₁ hrest best
      | some x =>
          rw [hcoming] at hfill hslot
          cases best with
          | none =>
              rw [show (none : Option (Fin N × α)).map numbered = none from rfl,
                scan_of_first hfill hslot, pass_of_first hcoming]
              exact ih h₁ hrest (some (i, x))
          | some least =>
              have hcompare : compare precedes x (numbered least).2 n₁
                  = .of (precedes t.calls x least.2) { n₁ with calls := n₁.calls + 1 } := by
                have hcalls : n₁.calls = t.calls := by rw [h₁.calls_eq, toDocket_fetched]
                rw [← hcalls]
                exact Feed.pull_apply n₁
              rw [show (some least).map numbered = some (numbered least) from rfl]
              cases hprecedes : precedes t.calls x least.2 with
              | error e =>
                  rw [hprecedes] at hcompare
                  rw [scan_of_failed hfill hslot hcompare, pass_of_failed hcoming hprecedes]
                  exact ⟨_, rfl, h₁.counted⟩
              | ok better =>
                  rw [hprecedes] at hcompare
                  rw [scan_of_compared hfill hslot hcompare hslot,
                    pass_of_compared hcoming hprecedes]
                  obtain ⟨n₂, hscan, h₂⟩ := ih h₁.counted hrest
                    (if better then some (i, x) else some least)
                  refine ⟨n₂, ?_, h₂⟩
                  rw [← hscan]
                  cases better <;> rfl

/-! ### The operations. -/

theorem Shown.anyHasNext (h : Shown n t) (hahead : ∀ i, t.ahead i = false)
    (names : List (Fin N)) :
    Merge.anyHasNext (names.map cursorAt) n
      = .value (names.any fun i => (t.coming i).isSome) n := by
  induction names with
  | nil => rfl
  | cons i names ih =>
      have hask : (cursorAt i).hasNext.sealed n
          = .value (t.coming i).isSome n := by
        unfold Act.sealed
        rw [h.hasNext_below (hahead i)]
      rw [List.map_cons, Merge.anyHasNext, Act.bind_apply, hask, List.any_cons]
      cases (t.coming i).isSome with
      | true => rfl
      | false => exact ih

theorem Shown.hasNext [Inhabited α] (h : Shown n t)
    (precedes : Nat → α → α → Except Failure Bool) :
    (overLists precedes).hasNext n
      = .value ((List.finRange N).any fun i => (t.coming i).isSome) n := by
  have hslots : ∀ i : Fin N, n.self.slot i = t.slot i := fun i => by rw [h.self_eq, slot_merge]
  show Merge.hasNext Node.own _ n = _
  rw [Merge.hasNext, Act.bind_apply, Field.read_apply]
  by_cases hany : n.self.slots.any Option.isSome = true
  · have hlength : n.self.slots.length = N := by rw [h.self_eq, merge, List.length_ofFn]
    obtain ⟨i, hi⟩ := exists_slot_of_any hlength hany
    obtain ⟨x, hx⟩ := Option.isSome_iff_exists.mp hi
    have hahead : t.ahead i = true := ahead_of_slot ((hslots i).symm.trans hx)
    have hsome : ((List.finRange N).any fun i => (t.coming i).isSome) = true :=
      List.any_eq_true.mpr ⟨i, List.mem_finRange i, h.sane.coming hahead⟩
    rw [hsome]
    simp only [show (Node.own.get n).slots.any Option.isSome = true from hany, if_true]
    rfl
  · have hahead : ∀ i, t.ahead i = false := by
      intro i
      by_contra hnot
      have hempty := (hslots i).symm.trans (slot_eq_none_of_any hany i)
      rw [slot, if_pos (Bool.eq_true_of_not_eq_false hnot)] at hempty
      have hsome := h.sane.coming (Bool.eq_true_of_not_eq_false hnot)
      rw [hempty] at hsome
      cases hsome
    simp only [show ¬ (Node.own.get n).slots.any Option.isSome = true from hany]
    exact h.anyHasNext hahead (List.finRange N)

theorem merge_passed (t : Stock N α) (i : Fin N) :
    (t.passed i).merge
      = { slots := t.merge.slots.set i none, last := some i.val, removable := true } := by
  have hslot : (t.passed i).slot = Function.update t.slot i none := by
    funext j
    by_cases hji : j = i
    · subst hji
      rw [slot_passed_self, Function.update_self]
    · rw [slot_passed_ne t hji, Function.update_of_ne hji]
  show Merge.mk (List.ofFn (t.passed i).slot) _ _ = _
  rw [hslot, ← set_ofFn]
  rfl

theorem tally_passed (hahead : t.ahead i = true) (j : Fin N) :
    (t.passed i).tally j = t.tally j :=
  congrArg (Tally.mk [t.rows j] · (t.loose j)) (taken_passed hahead j)

theorem Shown.passed (h : Shown n t) (hahead : t.ahead i = true) :
    Shown (Node.own.set (t.passed i).merge n) (t.passed i) := by
  refine ⟨rfl, h.calls_eq, fun j => ?_, fun j hj => ?_, h.sane.passed hahead⟩
  · rw [tally_passed hahead]
    exact h.below j
  · rw [tally_passed hahead]
    refine h.touched j (.inl ?_)
    by_cases hji : j = i
    · rw [hji, hahead]
    · obtain hj | hj := hj
      · exact (ahead_passed_ne t hji).symm.trans hj
      · exact absurd (Option.some.inj hj).symm hji

theorem Shown.next [Inhabited α] (h : Shown n t)
    (precedes : Nat → α → α → Except Failure Bool) :
    ∃ n', Pull.next.ask (overLists precedes) n = .of (respond precedes .next t).1 n'
      ∧ Shown n' (respond precedes .next t).2 := by
  obtain ⟨n₁, hscan, h₁⟩ := h.scan precedes List.drop_zero none
  rw [Option.map_none] at hscan
  have hnext : ∀ {r : Except Failure α} {n'}, (overLists precedes).next n = .of r n' →
      Pull.next.ask (overLists precedes) n = .of (r.map .element) n' := Pull.ask_next_of
  have hstart : (overLists precedes).next n = Merge.next Node.own
      ((List.finRange N).map cursorAt) (compare precedes) n := rfl
  cases hfound : (t.pass precedes (List.finRange N) none).1 with
  | error e =>
      rw [hfound] at hscan
      rw [respond_next_of_error hfound]
      refine ⟨n₁, hnext (r := .error e) ?_, h₁⟩
      rw [hstart, Merge.next, Act.bind_apply, hscan]
      rfl
  | ok found =>
      rw [hfound] at hscan
      cases found with
      | none =>
          rw [respond_next_of_none hfound]
          refine ⟨n₁, hnext (r := .error .ended) ?_, h₁⟩
          rw [hstart, Merge.next, Act.bind_apply, hscan]
          rfl
      | some found =>
          have hslot := slot_of_pass hfound
          rw [respond_next_of_ok hfound]
          refine ⟨_, hnext (r := .ok found.2) ?_, h₁.passed (ahead_of_slot hslot)⟩
          have hheld : (Node.own.get n₁).slot found.1.val = some found.2 := by
            rw [← hslot, ← slot_merge, ← h₁.self_eq]
            rfl
          rw [hstart, Merge.next, Act.bind_apply, hscan]
          show (Node.own.read >>= _ : Act _ α) n₁ = _
          simp only [Act.bind_apply, Field.read_apply, hheld, Option.getD_some,
            Field.modify_apply]
          rw [merge_passed, ← h₁.self_eq]
          rfl

theorem tally_struck_self (t : Stock N α) (i : Fin N) :
    (t.struck i).tally i = (t.tally i).cleared := by
  show Tally.mk [(t.toDocket.struck i (t.taken i - 1)).rows i] (t.taken i)
    (Function.update t.loose i false i) = Tally.mk (Entry.mark (t.taken i - 1) [t.rows i]) _ false
  rw [Docket.rows_struck_self, Function.update_self, Entry.mark_singleton]
  rfl

theorem tally_struck_ne (t : Stock N α) (h : j ≠ i) : (t.struck i).tally j = t.tally j := by
  show Tally.mk [(t.toDocket.struck i (t.taken i - 1)).rows j] (t.taken j)
    (Function.update t.loose i false j) = _
  rw [Docket.rows_struck_ne _ _ h, Function.update_of_ne h]
  rfl

theorem Shown.struck (h : Shown n t) (hdue : t.due = some i) {s' : Cursor × List α}
    (hs' : Stands s' (t.tally i).cleared) :
    Shown (Node.own.set (t.struck i).merge ((Node.child i).set s' n)) (t.struck i) := by
  rw [← tally_struck_self] at hs'
  have hself : (Node.own.set (t.struck i).merge ((Node.child i).set s' n)).below i = s' :=
    Node.below_child_set_self n i s'
  have hother : ∀ {j}, j ≠ i →
      (Node.own.set (t.struck i).merge ((Node.child i).set s' n)).below j = n.below j := fun hji =>
    Node.below_child_set_of_ne n s' hji
  refine ⟨rfl, h.calls_eq, fun j => ?_, fun j hj => ?_, h.sane.struck hdue⟩
  · by_cases hji : j = i
    · subst hji
      rw [hself]
      exact .inl hs'
    · rw [hother hji, tally_struck_ne t hji]
      exact h.below j
  · by_cases hji : j = i
    · subst hji
      rw [hself]
      exact hs'
    · rw [hother hji, tally_struck_ne t hji]
      exact h.touched j (hj.imp id nofun)

theorem Shown.remove [Inhabited α] (h : Shown n t)
    (precedes : Nat → α → α → Except Failure Bool) :
    ∃ n', Pull.remove.ask (overLists precedes) n = .of (respond precedes .remove t).1 n'
      ∧ Shown n' (respond precedes .remove t).2 := by
  have hremove : ∀ {r : Except Failure Unit} {n'}, (overLists precedes).remove n = .of r n' →
      Pull.remove.ask (overLists precedes) n = .of (r.map fun _ => .done) n' := Pull.ask_remove_of
  have hstart : (overLists precedes).remove n = Merge.remove Node.own
      ((List.finRange N).map cursorAt) n := rfl
  have hself : Node.own.get n = t.merge := h.self_eq
  cases hdue : t.due with
  | none =>
      have hremovable : t.merge.removable = false := congrArg Option.isSome hdue
      rw [respond_remove_of_none hdue]
      refine ⟨n, hremove (r := .error (.notMoved .remove false)) ?_, h⟩
      simp only [hstart, Merge.remove, Act.bind_apply, Field.read_apply, hself, hremovable]
      rfl
  | some i =>
      have hremovable : t.merge.removable = true := congrArg Option.isSome hdue
      have hsource : t.merge.last.bind (((List.finRange N).map (cursorAt (α := α)))[·]?)
          = some (cursorAt i) := by
        show (t.last.map Fin.val).bind _ = _
        rw [h.sane.last i hdue]
        simp
      have hgo : (overLists precedes).remove n
          = (do
              (cursorAt i).remove
              Node.own.modify ({ · with removable := false }) : Act _ Unit) n := by
        simp only [hstart, Merge.remove, Act.bind_apply, Field.read_apply, hself, hremovable,
          hsource]
        rfl
      have hstands := h.touched i (.inr hdue)
      cases hloose : t.loose i with
      | true =>
          obtain ⟨s', hbelow, hs'⟩ := remove_of_held hstands hloose
          have hwithin : (cursorAt i).remove n
              = .value () ((Node.child i).set s' n) :=
            Act.within_of (s := n) (x := reading.remove) (r := .ok ()) hbelow
          rw [respond_remove_of_loose hdue hloose]
          refine ⟨_, hremove (r := .ok ()) ?_, h.struck hdue hs'⟩
          rw [hgo, Act.bind_apply, hwithin, merge_struck, ← h.self_eq]
          rfl
      | false =>
          have hwithin : (cursorAt i).remove n
              = .failure (.notMoved .remove true) ((Node.child i).set (n.below i) n) :=
            Act.within_of (s := n) (x := reading.remove) (r := .error (.notMoved .remove true))
              (remove_of_not_held hstands hloose)
          rw [respond_remove_of_fast hdue hloose]
          refine ⟨n, hremove (r := .error (.notMoved .remove true)) ?_, h⟩
          rw [hgo, Act.bind_apply, hwithin]
          exact congrArg (Outcome.failure _) (Node.child_set_get n i)

/-- The lists as they are, and what the merge keeps. -/
def seen (n : Node (Merge α) fun _ : Fin N => Cursor × List α) :
    (Fin N → List α) × Merge α :=
  (fun i => (n.below i).2, n.self)

/-- A merge of lists keeps to its stock. -/
theorem obeys [Inhabited α] (precedes : Nat → α → α → Except Failure Bool) :
    Obeys (Pull.ask (overLists precedes)) seen (respond precedes) (look (N := N) (α := α))
      Shown where
  look_eq {n t} h := by
    refine Prod.ext (funext fun i => ?_) h.self_eq
    exact List.head_eq_of_cons_eq (left_of_standsBy (h.below i))
  asked {n t} h call := by
    cases call with
    | hasNext => exact ⟨n, Pull.ask_hasNext_of (r := .ok _) (h.hasNext precedes), h⟩
    | next => exact h.next precedes
    | remove => exact h.remove precedes

end Stock

/-! ## §3. Comparators that never fail. -/

/-- A merge over the lists of readers before the first call. -/
def opened (readers : Fin N → Reader α) : Node (Merge α) fun _ : Fin N => Cursor × List α where
  self := .start N
  below i := (readers i).state

theorem shown_opened (readers : Fin N → Reader α) :
    Stock.Shown (opened readers) (.start readers) where
  self_eq := by
    have hslots : List.replicate N (none : Option α) = List.ofFn fun _ : Fin N => none :=
      (List.ofFn_const N none).symm
    show Merge.mk (List.replicate N none) none false = _
    rw [hslots]
    rfl
  calls_eq := rfl
  below i := standsBy_state (readers i)
  touched i h := nomatch h
  sane := Stock.sane_start readers

/-- The lists as they are, and the number of the one that gave the last element. -/
def listsAndLast (n : Node (Merge α) fun _ : Fin N => Cursor × List α) :
    (Fin N → List α) × Option Nat :=
  (fun i => (n.below i).2, n.self.last)

/-- With a comparator that never fails a merge of lists keeps to its docket. -/
theorem obeys_docket [Inhabited α] (precedes : Nat → α → α → Bool) :
    Obeys (Pull.ask (overLists (Stock.sure precedes))) listsAndLast
      (Docket.respond (N := N) (α := α) precedes) Docket.look
      fun n d => ∃ t : Stock N α, Stock.Shown n t ∧ t.Tidy ∧ t.toDocket = d where
  look_eq := by
    rintro n d ⟨t, hshown, -, rfl⟩
    have hlook := (Stock.obeys (Stock.sure precedes)).look_eq hshown
    exact congrArg (fun look => (look.1, look.2.last)) hlook
  asked := by
    rintro n d ⟨t, hshown, htidy, rfl⟩ call
    obtain ⟨n', hask, hshown'⟩ := (Stock.obeys (Stock.sure precedes)).asked hshown call
    obtain ⟨hanswer, hdocket, htidy'⟩ := htidy.respond precedes call
    exact ⟨n', hanswer ▸ hask, _, hshown', htidy', hdocket⟩

/-- **Every run of calls of a merge over distinct lists, with a comparator that never fails, comes to
what the docket of the lists says, which holds nothing ahead.  A removal takes away the element
given last from the list that gave it, unless that was removed, and is refused otherwise; and the
elements come out as they do without the removals.** -/
theorem runs_as_docket [Inhabited α] (readers : Fin N → Reader α)
    (precedes : Nat → α → α → Bool) (calls : List Pull) :
    (transcript (Pull.ask (overLists (Stock.sure precedes))) calls (opened readers)).map
          (Outcome.seen listsAndLast)
        = ((Docket.start readers).report precedes calls).map some
      ∧ (led (Docket.respond precedes) calls (.start readers)).RemovesLast precedes
          (Docket.outstandingAfter none ((Docket.start readers).report precedes calls))
      ∧ Tally.elements ((Docket.start readers).report precedes calls)
        = Tally.elements
            ((Docket.start readers).report precedes (calls.filter (· ≠ .remove))) := by
  refine ⟨?_, ?_, ?_⟩
  · exact (obeys_docket precedes).transcript_eq calls
      ⟨.start readers, shown_opened readers, Stock.tidy_start readers, rfl⟩
  · exact ((Docket.recalls_start readers).led precedes calls).removesLast precedes
  · exact Docket.Alike.elements_report ⟨rfl, rfl, fun _ => rfl⟩ precedes calls

/-! ## §4. Comparators that may fail. -/

namespace Stock

/-- A removal takes away the element given last, or is refused and changes nothing. -/
def Spares (precedes : Nat → α → α → Except Failure Bool) (t : Stock N α) : Prop :=
  (∃ bothWays, respond precedes .remove t = (.error (.notMoved .remove bothWays), t))
    ∨ ∃ i before e after, t.last = some i ∧ t.rows i = before ++ e :: after
      ∧ t.given i = before.length + 1 ∧ (respond precedes .remove t).1 = .ok .done
      ∧ (respond precedes .remove t).2.rows = Function.update t.rows i (before ++ e.gone :: after)

/-- A removal takes away the element `x`, which was not given yet and stays in its slot. -/
def Robs (precedes : Nat → α → α → Except Failure Bool) (t : Stock N α) (i : Fin N) (x : α) :
    Prop :=
  ∃ before after, t.rows i = before ++ { item := x } :: after ∧ t.given i = before.length
    ∧ (respond precedes .remove t).1 = .ok .done
    ∧ (respond precedes .remove t).2.rows
      = Function.update t.rows i (before ++ { item := x, removed := true } :: after)
    ∧ (respond precedes .remove t).2.slot i = some x

variable {precedes : Nat → α → α → Except Failure Bool} {t : Stock N α} {i : Fin N} {x : α}

theorem Sane.spares (h : t.Sane) (hdue : ∀ i, t.due = some i → t.slot i = none) :
    t.Spares precedes := by
  cases hsome : t.due with
  | none => exact .inl ⟨false, respond_remove_of_none hsome⟩
  | some i =>
      cases hloose : t.loose i with
      | false => exact .inl ⟨true, respond_remove_of_fast hsome hloose⟩
      | true =>
          have hahead : t.ahead i = false := by
            by_contra hnot
            have hslot := hdue i hsome
            rw [slot, if_pos (Bool.eq_true_of_not_eq_false hnot)] at hslot
            exact absurd (h.coming (Bool.eq_true_of_not_eq_false hnot)) (by rw [hslot]; simp)
          have hpos := h.given_pos i hsome
          have hle := h.taken_le i
          rw [taken_of_not_ahead hahead] at hle
          have hlt : t.given i - 1 < (t.rows i).length := by omega
          obtain ⟨hrow, hlength⟩ := split_of_getElem? (List.getElem?_eq_getElem hlt)
          refine .inr ⟨i, _, _, _, h.last i hsome, hrow, ?_, ?_, ?_⟩
          · rw [hlength]
            omega
          · rw [respond_remove_of_loose hsome hloose]
          · rw [respond_remove_of_loose hsome hloose]
            show Function.update t.rows i ((t.rows i).modify (t.taken i - 1) Entry.gone) = _
            rw [taken_of_not_ahead hahead, ← Entry.modify_append, hlength, ← hrow]

theorem Sane.robs (h : t.Sane) (hdue : t.due = some i) (hx : t.slot i = some x) :
    t.Robs precedes i x := by
  have hahead := ahead_of_slot hx
  have hloose := h.loose i hdue hahead
  have hcoming : t.coming i = some x := by
    rw [slot, if_pos hahead] at hx
    exact hx
  obtain ⟨e, he, rfl⟩ := Option.map_eq_some_iff.mp hcoming
  obtain ⟨hrow, hlength⟩ := split_of_getElem? he
  have hpresent := h.held i e hdue hahead he
  have hsame : ({ item := e.item } : Entry α) = e := by rw [← hpresent]
  refine ⟨(t.rows i).take (t.given i), (t.rows i).drop (t.given i + 1), ?_, hlength.symm, ?_, ?_,
    ?_⟩
  · rw [hsame]
    exact hrow
  · rw [respond_remove_of_loose hdue hloose]
  · rw [respond_remove_of_loose hdue hloose]
    show Function.update t.rows i ((t.rows i).modify (t.taken i - 1) Entry.gone) = _
    have hmark := Entry.modify_append ((t.rows i).take (t.given i)) e
      ((t.rows i).drop (t.given i + 1))
    rw [hlength, ← hrow] at hmark
    rw [taken_of_ahead hahead, Nat.add_sub_cancel, hmark]
    rfl
  · rw [respond_remove_of_loose hdue hloose, slot_struck, hx]

theorem Robs.not_spares (h : t.Robs precedes i x) (hlast : t.last = some i) :
    ¬ t.Spares precedes := by
  obtain ⟨before, after, hrow, hgiven, hdone, hrows, -⟩ := h
  rintro (⟨bothWays, hrefused⟩ | ⟨j, before', e, after', hlast', hrow', hgiven', -, hrows'⟩)
  · rw [hrefused] at hdone
    cases hdone
  · obtain rfl : i = j := Option.some.inj (hlast.symm.trans hlast')
    have hlength : before.length = before'.length + 1 := hgiven.symm.trans hgiven'
    -- The element behind the one given last is marked in one row and not in the other.
    have hmarked : before ++ { item := x, removed := true } :: after
        = before' ++ e.gone :: after' := by
      have hself := congrFun (hrows.symm.trans hrows') i
      rwa [Function.update_self, Function.update_self] at hself
    have hpresent : before ++ { item := x } :: after = before' ++ e :: after' :=
      hrow.symm.trans hrow'
    have hbehind : ∀ e : Entry α, (before' ++ e :: after')[before'.length + 1]? = after'[0]? := by
      intro e
      rw [List.getElem?_append_right (Nat.le_add_right _ 1), Nat.add_sub_cancel_left]
      rfl
    have hat : ∀ e : Entry α, (before ++ e :: after)[before'.length + 1]? = some e := by
      intro e
      rw [← hlength, List.getElem?_append_right (Nat.le_refl _), Nat.sub_self]
      rfl
    have hgone := hat { item := x, removed := true }
    have hthere := hat { item := x }
    rw [hmarked, hbehind] at hgone
    rw [hpresent, hbehind, hgone] at hthere
    cases hthere

end Stock

/-- **Every run of calls of a merge over distinct lists, whatever its comparator does, comes to what
the stock of the lists says.  A removal takes away the element given last, or is refused and
changes nothing, just if the slot of the list that gave that element is empty.  Where a pass that
failed has filled this slot again, the removal takes away the element in it, which was not given
yet and still will be.** -/
theorem spares_iff_slot_empty [Inhabited α] (readers : Fin N → Reader α)
    (precedes : Nat → α → α → Except Failure Bool) (calls : List Pull) :
    (transcript (Pull.ask (overLists precedes)) calls (opened readers)).map (Outcome.seen Stock.seen)
        = ((Stock.start readers).report precedes calls).map some
      ∧ ((led (Stock.respond precedes) calls (.start readers)).Spares precedes
        ↔ ∀ i, (led (Stock.respond precedes) calls (.start readers)).due = some i →
            (led (Stock.respond precedes) calls (.start readers)).slot i = none)
      ∧ ∀ i x, (led (Stock.respond precedes) calls (.start readers)).due = some i →
          (led (Stock.respond precedes) calls (.start readers)).slot i = some x →
          (led (Stock.respond precedes) calls (.start readers)).Robs precedes i x := by
  have hsane : (led (Stock.respond precedes) calls (.start readers)).Sane :=
    led_of_step (fun call t h => Stock.Sane.respond precedes call h) calls
      (Stock.sane_start readers)
  refine ⟨(Stock.obeys precedes).transcript_eq calls (shown_opened readers),
    ⟨fun hspares i hdue => ?_, hsane.spares⟩, fun i x => hsane.robs⟩
  cases hslot : (led (Stock.respond precedes) calls (.start readers)).slot i with
  | none => rfl
  | some x => exact absurd hspares ((hsane.robs hdue hslot).not_spares (hsane.last i hdue))

/-- A comparator that fails in its second call. -/
def fickle (k : Nat) (_ _ : Nat) : Except Failure Bool :=
  if k = 1 then .error (.raised "ValueError" (some "incomparable")) else .ok (decide (0 < k))

/-- Two lists with cursors at their fronts. -/
def twoLists (i : Fin 2) : Reader Nat := { ahead := [[1, 3], [2]].getD i.val [] }

/-- The comparison of 2 with 3 fails after 3 was read; 3 is removed instead of 1, and given in the
end. -/
theorem fickle_robs :
    (transcript (Pull.ask (overLists fickle)) [.next, .next, .remove, .next, .next]
          (opened twoLists)).map (Outcome.seen fun n => ((n.below 0).2, (n.below 1).2))
        = [some (.ok (.element 1), [1, 3], [2]),
          some (.error (.raised "ValueError" (some "incomparable")), [1, 3], [2]),
          some (.ok .done, [1], [2]), some (.ok (.element 2), [1], [2]),
          some (.ok (.element 3), [1], [2])]
      ∧ ¬ (led (Stock.respond fickle) [.next, .next] (.start twoLists)).Spares fickle := by
  constructor
  · rfl
  · have hsane : (led (Stock.respond fickle) [.next, .next] (.start twoLists)).Sane :=
      led_of_step (fun call t h => Stock.Sane.respond fickle call h) _ (Stock.sane_start twoLists)
    exact (hsane.robs (i := 0) (x := 3) rfl rfl).not_spares rfl

end Cursors.Merge
