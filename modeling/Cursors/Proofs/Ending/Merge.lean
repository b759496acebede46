/-
  Cursors.Proofs.Ending.Merge
  ───────────────────────────
  **THE END OF A MERGE.**

  A merge is spent when all its slots are empty and all its sources are
  spent.  A pass that finds nothing has seen this of every source in turn;
  one that finds a full slot cannot end the merge any more.

  The comparator is called without a guard.  What it fails with leaves
  `next` as it is, whereas `hasNext` never calls it, and seals what its
  sources fail with.
-/
import Mathlib.Data.List.FinRange
import Cursors.Proofs.Ending.Node
import Cursors.Proofs.Merge.Rows

namespace Cursors.Merge

variable {N : Nat} {τ : Fin N → Type} {α : Type}

/-! ## §1. Where a merge stands. -/

/-- Nothing more comes of the `j`-th source. -/
def Blank (courses : (i : Fin N) → Course (τ i)) (n : Node (Merge α) τ) (j : Fin N) : Prop :=
  n.self.slot j = none ∧ (courses j).Spent (n.below j)

/-- Nothing of the `j`-th source is at hand. -/
def Bare (courses : (i : Fin N) → Course (τ i)) (n : Node (Merge α) τ) (j : Fin N) : Prop :=
  n.self.slot j = none ∧ ¬ (courses j).Ready (n.below j)

/-- A merge is spent when nothing more comes of any source. -/
def knot (courses : (i : Fin N) → Course (τ i)) (precedes : Nat → α → α → Except Failure Bool) :
    Knot (Merge α) τ where
  courses := courses
  -- As of all callbacks, only the number of the call is known, and not what it compares.
  Raises k e := ∃ x y, precedes k x y = .error e
  Fit n := n.self.slots.length = N
  Ready n := (∃ j : Fin N, (n.self.slot j).isSome = true)
    ∨ ∃ m, (courses m).Ready (n.below m) ∧ ∀ j < m, (courses j).Spent (n.below j)
  Spent n := ∀ j, Blank courses n j
  not_spent := by
    rintro n (⟨j, hslot⟩ | ⟨m, hready, -⟩) hspent
    · rw [(hspent j).1] at hslot
      exact absurd hslot Bool.false_ne_true
    · exact (courses m).not_spent hready (hspent m).2

/-- The comparator of the user, which is called without a guard. -/
def compare (precedes : Nat → α → α → Except Failure Bool) (x y : α) :
    Act (Node (Merge α) τ) Bool :=
  Feed.pull (fun k => precedes k x y) Node.count

/-- A merge of sources. -/
def upon [Inhabited α] (sources : (i : Fin N) → Forward (τ i) α)
    (precedes : Nat → α → α → Except Failure Bool) : Forward (Node (Merge α) τ) α :=
  forward Node.own ((List.finRange N).map fun i => (sources i).within (Node.child i))
    (compare precedes)

section

variable {courses : (i : Fin N) → Course (τ i)} {sources : (i : Fin N) → Forward (τ i) α}
  {precedes : Nat → α → α → Except Failure Bool} {n n₁ n₂ : Node (Merge α) τ} {i j m : Fin N}

theorem not_ready_of_bare (h : ∀ j, Bare courses n j) : ¬ (knot courses precedes).Ready n := by
  rintro (⟨j, hslot⟩ | ⟨m, hready, -⟩)
  · rw [(h j).1] at hslot
    exact absurd hslot Bool.false_ne_true
  · exact (h m).2 hready

/-- What the `j`-th source has given and has left is the same in both states. -/
def Same (n n' : Node (Merge α) τ) (j : Fin N) : Prop :=
  n'.self.slot j = n.self.slot j ∧ n'.below j = n.below j

theorem same_refl (n : Node (Merge α) τ) (j : Fin N) : Same n n j := ⟨rfl, rfl⟩

theorem Same.trans (h : Same n n₁ j) (h' : Same n₁ n₂ j) : Same n n₂ j :=
  ⟨h'.1.trans h.1, h'.2.trans h.2⟩

theorem Same.blank (h : Same n n₁ j) (hblank : Blank courses n j) : Blank courses n₁ j := by
  unfold Blank
  rw [h.1, h.2]
  exact hblank

theorem Same.bare (h : Same n n₁ j) (hbare : Bare courses n₁ j) : Bare courses n j := by
  unfold Bare
  rw [← h.1, ← h.2]
  exact hbare

/-! ## §2. Filling a slot. -/

/-- What holds after slot `i` was to be filled. -/
structure Filled (courses : (i : Fin N) → Course (τ i))
    (precedes : Nat → α → α → Except Failure Bool) (i : Fin N) (n : Node (Merge α) τ)
    (r : Except Failure Bool) (n' : Node (Merge α) τ) : Prop where
  moved : (knot courses precedes).Moved n r n'
  length_eq : n'.self.slots.length = n.self.slots.length
  same : ∀ j, j ≠ i → Same n n' j
  bare : r = .ok false → Bare courses n i
  blank : r = .ok false → Blank courses n' i
  of_blank : Blank courses n i → r = .ok false

theorem filled (hsound : (knot courses precedes).Sound sources)
    (hfits : (knot courses precedes).Fits n) (i : Fin N) (hi : i.val < n.self.slots.length) :
    (fill Node.own i.val ((sources i).within (Node.child i))).After n
      (Filled courses precedes i n) := by
  unfold fill
  apply Act.after_read
  cases hslot : n.self.slot i with
  | some x =>
      rw [show (Node.own.get n).slot i = some x from hslot]
      refine Act.after_pure
        ⟨Knot.moved_refl hfits _, rfl, fun j _ => same_refl n j, nofun, nofun, ?_⟩
      intro hblank
      exact nomatch hslot.symm.trans hblank.1
  | none =>
      rw [show (Node.own.get n).slot i = none from hslot]
      refine (Knot.after_ask hsound hfits i).bind ?_ ?_
      · rintro more n₁ ⟨hmoved, t, rfl, hask⟩
        have hsame : ∀ j, j ≠ i → Same n ((Node.child i).set t n) j :=
          fun j hj => ⟨rfl, Node.below_child_set_of_ne n t hj⟩
        cases more with
        | false =>
            apply Act.after_read
            rw [show (Node.own.get ((Node.child i).set t n)).slot i = none from hslot]
            refine Act.after_pure ⟨hmoved.answer _, rfl, hsame,
              fun _ => ⟨hslot, hask.not_ready (by simp)⟩, fun _ => ⟨hslot, ?_⟩, fun _ => rfl⟩
            rw [Node.below_child_set_self]
            exact hask.spent rfl
        | true =>
            -- The slot was empty, and from here on its source was not spent at the start.
            have hopen : ¬ Blank courses n i := fun h => hask.not_spent (by simp) h.2
            have hready : (courses i).Ready (((Node.child i).set t n).below i) := by
              rw [Node.below_child_set_self]
              exact hask.ready rfl
            refine (Knot.after_step_ready hsound hmoved.fits hready).bind ?_ ?_
            · rintro x n₂ ⟨hstepped, u, rfl, -⟩
              have hmoved := hmoved.trans hstepped
              apply Act.after_modify
              apply Act.after_read
              have hfull : (n.self.putSlot i (some x)).slot i = some x := slot_putSlot_self hi _
              show (pure ((n.self.putSlot i (some x)).slot i).isSome : Act _ Bool).After _ _
              rw [hfull]
              refine Act.after_pure ⟨⟨hmoved.fits, hmoved.later, nofun⟩,
                length_slots_putSlot n.self i (some x), ?_, nofun, nofun, fun h => absurd h hopen⟩
              intro j hj
              refine ⟨slot_putSlot_ne (by omega) _, ?_⟩
              exact (Node.below_child_set_of_ne _ u hj).trans (Node.below_child_set_of_ne n t hj)
            · rintro e n₂ ⟨hstepped, u, rfl, -⟩
              refine ⟨(hmoved.trans hstepped).error, rfl, ?_, nofun, nofun, fun h => absurd h hopen⟩
              intro j hj
              exact ⟨rfl,
                (Node.below_child_set_of_ne _ u hj).trans (Node.below_child_set_of_ne n t hj)⟩
      · rintro e n₁ ⟨hmoved, t, rfl, hask⟩
        refine ⟨hmoved.error, rfl, fun j hj => ⟨rfl, Node.below_child_set_of_ne n t hj⟩, nofun,
          nofun, ?_⟩
        intro hblank
        exact absurd hblank.2 (hask.not_spent (by simp))

/-! ## §3. The pass. -/

/-- What holds after a pass over the slots from the `i`-th one on. -/
structure Scanned (courses : (i : Fin N) → Course (τ i))
    (precedes : Nat → α → α → Except Failure Bool) (i : Nat) (best : Option (Nat × α))
    (n : Node (Merge α) τ) (r : Except Failure (Option (Nat × α))) (n' : Node (Merge α) τ) :
    Prop where
  moved : (knot courses precedes).Moved n r n'
  length_eq : n'.self.slots.length = n.self.slots.length
  same : ∀ j : Fin N, j < i → Same n n' j
  of_none : r = .ok none → best = none
  bare : r = .ok none → ∀ j : Fin N, i ≤ j → Bare courses n j
  blank : r = .ok none → ∀ j : Fin N, i ≤ j → Blank courses n' j
  of_blank : best = none → (∀ j : Fin N, i ≤ j → Blank courses n j) → r = .ok none

/-- The comparison of an element with the least one so far. -/
theorem after_compare (hfits : (knot courses precedes).Fits n) (x y : α) :
    (compare precedes x y).After n fun r n' =>
      (knot courses precedes).Moved n r n' ∧ n' = { n with calls := n.calls + 1 } := by
  refine (Node.after_pull _ n).mono ?_
  rintro r n' ⟨hr, rfl⟩
  exact ⟨Knot.moved_called hfits fun e he => ⟨x, y, hr.symm.trans he⟩, rfl⟩

/-- An empty slot whose source is spent leaves the rest of the pass to find something. -/
theorem Filled.scanned_of_false {best : Option (Nat × α)} {r : Except Failure (Option (Nat × α))}
    (h : Filled courses precedes i n (.ok false) n₁)
    (hrest : Scanned courses precedes (i + 1) best n₁ r n₂) :
    Scanned courses precedes i best n r n₂ where
  moved := h.moved.trans hrest.moved
  length_eq := hrest.length_eq.trans h.length_eq
  same j hj := (h.same j (by omega)).trans (hrest.same j (by omega))
  of_none := hrest.of_none
  bare hr j hj := by
    by_cases hji : j = i
    · subst hji
      exact h.bare rfl
    · exact (h.same j hji).bare (hrest.bare hr j (by omega))
  blank hr j hj := by
    by_cases hji : j = i
    · subst hji
      exact (hrest.same j (by omega)).blank (h.blank rfl)
    · exact hrest.blank hr j (by omega)
  of_blank hbest hblank :=
    hrest.of_blank hbest fun j hj => (h.same j (by omega)).blank (hblank j (by omega))

/-- A full slot is the best one so far or comes after it, and the pass finds something. -/
theorem Filled.scanned_of_true {best : Option (Nat × α)} {found : Nat × α}
    {r : Except Failure (Option (Nat × α))}
    (h : Filled courses precedes i n (.ok true) n₁)
    (hmoved : (knot courses precedes).Moved n (.ok true) n₂)
    (hself : n₂.self = n₁.self) (hbelow : n₂.below = n₁.below) {n₃ : Node (Merge α) τ}
    (hrest : Scanned courses precedes (i + 1) (some found) n₂ r n₃) :
    Scanned courses precedes i best n r n₃ where
  moved := hmoved.trans hrest.moved
  length_eq := by rw [hrest.length_eq, hself, h.length_eq]
  same j hj := by
    have hsame : Same n n₂ j := by
      unfold Same
      rw [hself, hbelow]
      exact h.same j (by omega)
    exact hsame.trans (hrest.same j (by omega))
  of_none hr := nomatch hrest.of_none hr
  bare hr := nomatch hrest.of_none hr
  blank hr := nomatch hrest.of_none hr
  of_blank _ hblank := nomatch h.of_blank (hblank i (Nat.le_refl _))

theorem val_of_finRange {i : Nat} (h : (List.finRange N)[i]? = some m) : m.val = i := by
  obtain ⟨hlt, rfl⟩ := List.getElem?_eq_some_iff.mp h
  rw [List.getElem_finRange]
  rfl

theorem scanned [Inhabited α] (hsound : (knot courses precedes).Sound sources) {i : Nat}
    {names : List (Fin N)} (hnames : (List.finRange N).drop i = names)
    (best : Option (Nat × α)) (hfits : (knot courses precedes).Fits n)
    (hlength : n.self.slots.length = N) :
    (scan Node.own (compare precedes)
      (names.map fun i => (sources i).within (Node.child i)) i best).After n
      (Scanned courses precedes i best n) := by
  induction names generalizing i n best with
  | nil =>
      have hend : N ≤ i := by simpa using List.drop_eq_nil_iff.mp hnames
      refine Act.after_pure ⟨Knot.moved_refl hfits _, rfl, fun j _ => same_refl n j, ?_, ?_, ?_, ?_⟩
      · exact Except.ok.inj
      · exact fun _ j hj => absurd j.isLt (by omega)
      · exact fun _ j hj => absurd j.isLt (by omega)
      · exact fun hbest _ => congrArg Except.ok hbest
  | cons m names ih =>
      obtain ⟨hm, hrest⟩ := of_drop_eq_cons hnames
      obtain rfl : m.val = i := val_of_finRange hm
      have hi : m.val < n.self.slots.length := by
        rw [hlength]
        exact m.isLt
      show (scan Node.own (compare precedes) (_ :: _) m.val best).After n _
      unfold scan
      refine (filled hsound hfits m hi).bind ?_ ?_
      · intro full n₁ hfilled
        have hlength₁ := hfilled.length_eq.trans hlength
        cases full with
        | false =>
            exact (ih hrest best hfilled.moved.fits hlength₁).mono fun r n' h =>
              hfilled.scanned_of_false h
        | true =>
            cases best with
            | none =>
                simp only [if_true, pure_bind]
                apply Act.after_read
                exact (ih hrest _ hfilled.moved.fits hlength₁).mono fun r n' h =>
                  hfilled.scanned_of_true hfilled.moved rfl rfl h
            | some least =>
                apply Act.after_read
                refine (after_compare hfilled.moved.fits _ least.2).bind ?_ ?_
                · rintro better n₂ ⟨hcompared, rfl⟩
                  have hmoved := (hfilled.moved.trans hcompared).answer true
                  cases better with
                  | true =>
                      apply Act.after_read
                      exact (ih hrest _ hmoved.fits hlength₁).mono fun r n' h =>
                        hfilled.scanned_of_true hmoved rfl rfl h
                  | false =>
                      exact (ih hrest _ hmoved.fits hlength₁).mono fun r n' h =>
                        hfilled.scanned_of_true hmoved rfl rfl h
                · rintro e n₂ ⟨hcompared, rfl⟩
                  exact ⟨(hfilled.moved.trans hcompared).error, hfilled.length_eq,
                    fun j hj => hfilled.same j (by omega), by simp, by simp, by simp, by simp⟩
      · intro e n₁ h
        refine ⟨h.moved.error, h.length_eq, fun j hj => h.same j (by omega), by simp, by simp,
          by simp, ?_⟩
        intro _ hblank
        exact absurd (h.of_blank (hblank m (Nat.le_refl _))) (by simp)

/-! ## §4. Asking the sources. -/

/-- Among the sources from the `i`-th one on, the first that is not spent has its next element at
hand. -/
def Ahead (courses : (i : Fin N) → Course (τ i)) (i : Nat) (n : Node (Merge α) τ) : Prop :=
  ∃ m : Fin N, i ≤ m ∧ (courses m).Ready (n.below m)
    ∧ ∀ j : Fin N, i ≤ j → j < m → (courses j).Spent (n.below j)

/-- The sources from the `i`-th one on are spent. -/
def SpentFrom (courses : (i : Fin N) → Course (τ i)) (i : Nat) (n : Node (Merge α) τ) : Prop :=
  ∀ j : Fin N, i ≤ j → (courses j).Spent (n.below j)

theorem ahead_of_ready (h : (courses m).Ready (n.below m)) : Ahead courses m n :=
  ⟨m, Nat.le_refl _, h, fun j _ hj => absurd hj (by omega)⟩

theorem ahead_of_spent (h : (courses m).Spent (n.below m)) (hrest : Ahead courses (m + 1) n) :
    Ahead courses m n := by
  obtain ⟨m', hm', hready, hbefore⟩ := hrest
  refine ⟨m', by omega, hready, ?_⟩
  intro j hj hlt
  by_cases hjm : j = m
  · subst hjm
    exact h
  · exact hbefore j (by omega) hlt

/-- Where the first source is not at hand, it is spent, and one of the others is at hand. -/
theorem Ahead.of_not_ready (h : Ahead courses m n) (hnot : ¬ (courses m).Ready (n.below m)) :
    (courses m).Spent (n.below m) ∧ Ahead courses (m + 1) n := by
  obtain ⟨m', hm', hready, hbefore⟩ := h
  have hne : m ≠ m' := by
    rintro rfl
    exact hnot hready
  exact ⟨hbefore m (Nat.le_refl _) (by omega), m', by omega, hready,
    fun j hj hlt => hbefore j (by omega) hlt⟩

theorem Ahead.congr {i : Nat} (h : Ahead courses i n)
    (heq : ∀ j : Fin N, i ≤ j → n₁.below j = n.below j) : Ahead courses i n₁ := by
  obtain ⟨m, hm, hready, hbefore⟩ := h
  refine ⟨m, hm, ?_, ?_⟩
  · rw [heq m hm]
    exact hready
  · intro j hj hlt
    rw [heq j hj]
    exact hbefore j hj hlt

theorem spentFrom_of_spent (h : (courses m).Spent (n.below m))
    (hrest : SpentFrom courses (m + 1) n) : SpentFrom courses m n := by
  intro j hj
  by_cases hjm : j = m
  · subst hjm
    exact h
  · exact hrest j (by omega)

/-- What holds after the sources from the `i`-th one on were asked. -/
structure Polled (courses : (i : Fin N) → Course (τ i))
    (precedes : Nat → α → α → Except Failure Bool) (i : Nat) (n : Node (Merge α) τ)
    (r : Except Failure Bool) (n' : Node (Merge α) τ) : Prop where
  moved : (knot courses precedes).Moved n r n'
  self_eq : n'.self = n.self
  below_eq : ∀ j : Fin N, j < i → n'.below j = n.below j
  ready : r = .ok true → Ahead courses i n'
  spent : r = .ok false → SpentFrom courses i n'
  of_ready : Ahead courses i n → r = .ok true
  of_spent : SpentFrom courses i n → r = .ok false

/-- A source that is spent leaves it to the others to answer. -/
theorem Polled.of_spent_first {r : Except Failure Bool}
    (h : Polled courses precedes (m + 1) n₁ r n₂)
    (hmoved : (knot courses precedes).Moved n (.ok false) n₁) (hself : n₁.self = n.self)
    (hother : ∀ j : Fin N, j ≠ m → n₁.below j = n.below j)
    (hnot : ¬ (courses m).Ready (n.below m)) (hspent : (courses m).Spent (n₁.below m)) :
    Polled courses precedes m n r n₂ := by
  have hspent₂ : (courses m).Spent (n₂.below m) := by
    rw [h.below_eq m (Nat.lt_succ_self _)]
    exact hspent
  refine ⟨hmoved.trans h.moved, h.self_eq.trans hself, ?_, ?_, ?_, ?_, ?_⟩
  · exact fun j hj => (h.below_eq j (by omega)).trans (hother j (by omega))
  · exact fun hr => ahead_of_spent hspent₂ (h.ready hr)
  · exact fun hr => spentFrom_of_spent hspent₂ (h.spent hr)
  · intro hahead
    obtain ⟨-, hahead⟩ := hahead.of_not_ready hnot
    exact h.of_ready (hahead.congr fun j hj => hother j (by omega))
  · intro hall
    refine h.of_spent fun j hj => ?_
    rw [hother j (by omega)]
    exact hall j (by omega)

theorem polled (hsound : (knot courses precedes).Sound sources) {i : Nat}
    {names : List (Fin N)} (hnames : (List.finRange N).drop i = names)
    (hfits : (knot courses precedes).Fits n) :
    (anyHasNext (names.map fun i => (sources i).within (Node.child i))).After n
      (Polled courses precedes i n) := by
  induction names generalizing i n with
  | nil =>
      have hend : N ≤ i := by simpa using List.drop_eq_nil_iff.mp hnames
      refine Act.after_pure ⟨Knot.moved_refl hfits _, rfl, fun _ _ => rfl, by simp,
        fun _ j hj => absurd j.isLt (by omega), ?_, fun _ => rfl⟩
      rintro ⟨m, hm, -⟩
      exact absurd m.isLt (by omega)
  | cons m names ih =>
      obtain ⟨hm, hrest⟩ := of_drop_eq_cons hnames
      obtain rfl : m.val = i := val_of_finRange hm
      show (anyHasNext (_ :: _)).After n _
      unfold anyHasNext
      refine (Knot.after_ask_sealed hsound hfits m).bind ?_ ?_
      · rintro more n₁ ⟨hmoved, t, rfl, hask⟩
        have hself : ((Node.child m).set t n).below m = t := Node.below_child_set_self n m t
        have hother : ∀ j : Fin N, j ≠ m → ((Node.child m).set t n).below j = n.below j :=
          fun j hj => Node.below_child_set_of_ne n t hj
        cases more with
        | true =>
            have hready : (courses m).Ready (((Node.child m).set t n).below m) := by
              rw [hself]
              exact hask.ready rfl
            refine Act.after_pure ⟨hmoved.answer _, rfl, fun j hj => hother j (by omega),
              fun _ => ahead_of_ready hready, by simp, fun _ => rfl, ?_⟩
            intro hspent
            exact absurd (hspent m (Nat.le_refl _)) (hask.not_spent (by simp))
        | false =>
            have hspent : (courses m).Spent (((Node.child m).set t n).below m) := by
              rw [hself]
              exact hask.spent rfl
            exact (ih hrest hmoved.fits).mono fun r n' h =>
              h.of_spent_first hmoved rfl hother (hask.not_ready (by simp)) hspent
      · rintro e n₁ ⟨hmoved, t, rfl, hask⟩
        refine ⟨hmoved.error, rfl, fun j hj => Node.below_child_set_of_ne n t (by omega), by simp,
          by simp, ?_, ?_⟩
        · intro hahead
          obtain ⟨hspent, -⟩ := hahead.of_not_ready (hask.not_ready (by simp))
          exact absurd hspent (hask.not_spent (by simp))
        · intro hspent
          exact absurd (hspent m (Nat.le_refl _)) (hask.not_spent (by simp))

/-! ## §5. The operations. -/

theorem exists_slot_of_any (hlength : n.self.slots.length = N)
    (hany : n.self.slots.any Option.isSome = true) :
    ∃ j : Fin N, (n.self.slot j).isSome = true := by
  obtain ⟨held, hmem, hheld⟩ := List.any_eq_true.mp hany
  obtain ⟨i, hi, rfl⟩ := List.getElem_of_mem hmem
  refine ⟨⟨i, hlength ▸ hi⟩, ?_⟩
  rw [slot, List.getElem?_eq_getElem hi]
  exact hheld

theorem asked [Inhabited α] (hsound : (knot courses precedes).Sound sources)
    (hfit : (knot courses precedes).course.Fit n) :
    (upon sources precedes).hasNext.After n ((knot courses precedes).course.Asked n) := by
  show (hasNext Node.own _).After n _
  unfold hasNext
  apply Act.after_read
  by_cases hany : n.self.slots.any Option.isSome = true
  · rw [show (Node.own.get n).slots.any Option.isSome = true from hany]
    exact Act.after_pure (Course.asked_true hfit (.inl (exists_slot_of_any hfit.2 hany)))
  · rw [if_neg (show ¬ (Node.own.get n).slots.any Option.isSome = true from hany)]
    refine (polled hsound List.drop_zero hfit.1).mono ?_
    intro r n' h
    refine ⟨⟨h.moved.fits, ?_⟩, h.moved.later, ?_, ?_, ?_, ?_, h.moved.raised⟩
    · show n'.self.slots.length = N
      rw [h.self_eq]
      exact hfit.2
    · rintro (⟨j, hslot⟩ | ⟨m, hready, hbefore⟩)
      · rw [slot_eq_none_of_any hany] at hslot
        exact absurd hslot Bool.false_ne_true
      · exact h.of_ready ⟨m, Nat.zero_le _, hready, fun j _ hj => hbefore j hj⟩
    · exact fun hspent => h.of_spent fun j _ => (hspent j).2
    · intro hr
      obtain ⟨m, -, hready, hbefore⟩ := h.ready hr
      exact .inr ⟨m, hready, fun j hj => hbefore j (Nat.zero_le _) hj⟩
    · intro hr j
      refine ⟨?_, h.spent hr j (Nat.zero_le _)⟩
      rw [h.self_eq]
      exact slot_eq_none_of_any hany j

theorem stepped [Inhabited α] (hsound : (knot courses precedes).Sound sources)
    (hfit : (knot courses precedes).course.Fit n) :
    (upon sources precedes).next.After n ((knot courses precedes).course.Stepped n) := by
  show (next Node.own _ _).After n _
  unfold next
  refine (scanned hsound List.drop_zero none hfit.1 hfit.2).bind ?_ ?_
  · rintro found n₁ h
    cases found with
    | none =>
        have hnot : ¬ (knot courses precedes).Ready n :=
          not_ready_of_bare fun j => h.bare rfl j (Nat.zero_le _)
        exact Act.after_fail (Course.stepped_ended ⟨h.moved.fits, h.length_eq.trans hfit.2⟩
          h.moved.later (fun j => h.blank rfl j (Nat.zero_le _)) hnot)
    | some found =>
        have hopen : ¬ (knot courses precedes).Spent n := fun hspent =>
          nomatch h.of_blank rfl fun j _ => hspent j
        apply Act.after_read
        apply Act.after_modify
        refine Act.after_pure (Course.stepped_ok ⟨h.moved.fits, ?_⟩ h.moved.later hopen)
        show (n₁.self.slots.set found.1 none).length = N
        rw [List.length_set, h.length_eq]
        exact hfit.2
  · intro e n₁ h
    exact Course.stepped_error ⟨h.moved.fits, h.length_eq.trans hfit.2⟩ h.moved.later
      (fun hspent => nomatch h.of_blank rfl fun j _ => hspent j) (h.moved.raised e rfl)

theorem sound [Inhabited α] (hsound : ∀ i, (courses i).Sound (sources i))
    (precedes : Nat → α → α → Except Failure Bool) :
    (knot courses precedes).course.Sound (upon sources precedes) where
  hasNext _ := asked hsound
  next _ := stepped hsound

end

end Cursors.Merge
