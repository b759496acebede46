/-
  Cursors.Proofs.Ending.Flatten
  ─────────────────────────────
  **THE END OF A FLATTENING.**

  A flattening closes a branch once the branch says that it has no more, so
  that every branch opened so far is open still or done (`Tended`).  It is
  spent when none is open: then all of them are done.

  The iterators that the classifier may give are numbered, and `walk` says
  which of them a value is.  The canopy of a flattening is what it keeps for
  itself, the source of the root alone, and the branches opened so far.
-/
import Cursors.Proofs.Ending.Node
import Cursors.Proofs.Flatten.Grove

namespace Cursors

/-! ## §1. Canopies. -/

/-- A flattening, the source of the root alone, and the branches opened so far. -/
structure Canopy (α : Type) where
  flat : Flatten Bough α := {}
  sole : Single α
  opened : List Bough := []

namespace Canopy

variable {τ : Nat → Type} {α : Type}

/-- The state of the flattening. -/
def flatField : Field (Node (Canopy α) τ) (Flatten Bough α) where
  get n := n.self.flat
  set f n := Node.own.set { n.self with flat := f } n

/-- The source of the root alone. -/
def soleField : Field (Node (Canopy α) τ) (Single α) where
  get n := n.self.sole
  set t n := Node.own.set { n.self with sole := t } n

/-- A branch is opened. -/
def note (b : Bough) : Act (Node (Canopy α) τ) Unit :=
  Node.own.modify fun c => { c with opened := b :: c.opened }

/-- A value that is an iterator is a branch. -/
def branch (walk : α → Option Nat) (x : α) : Act (Node (Canopy α) τ) (Option Bough) :=
  match walk x with
  | none => pure none
  | some k => do
      note (.walk k)
      return some (.walk k)

/-- The root alone is a branch. -/
def single (x : α) : Act (Node (Canopy α) τ) Bough := do
  soleField.write { item := x }
  note .sole
  return .sole

/-- The elements of a branch. -/
def elements (sources : (k : Nat) → Forward (τ k) α) : Bough → Forward (Node (Canopy α) τ) α
  | .walk k => (sources k).within (Node.child k)
  | .sole => Single.forward "root" (pure false) soleField

/-- How values nest in a canopy. -/
def nesting (sources : (k : Nat) → Forward (τ k) α) (walk : α → Option Nat) (mode : Mode)
    (cb : Callback α α) : Nesting (Node (Canopy α) τ) Bough α where
  classify := cb.ask mode
  branch := branch walk
  single := single
  elements := elements sources

/-- A flattening of branches. -/
def upon (sources : (k : Nat) → Forward (τ k) α) (walk : α → Option Nat) (mode : Mode)
    (cb : Callback α α) (fuel : Nat) : Forward (Node (Canopy α) τ) α :=
  Flatten.forward "ObjectGraphIterator" fuel flatField (nesting sources walk mode cb)

/-! ## §2. Where a flattening stands. -/

/-- A branch has its next element at hand. -/
def AtHand (courses : (k : Nat) → Course (τ k)) (n : Node (Canopy α) τ) : Bough → Prop
  | .walk k => (courses k).Ready (n.below k)
  | .sole => (n.self.sole.fresh && !n.self.sole.removed) = true

/-- A branch has nothing left. -/
def Done (courses : (k : Nat) → Course (τ k)) (n : Node (Canopy α) τ) : Bough → Prop
  | .walk k => (courses k).Spent (n.below k)
  | .sole => (n.self.sole.fresh && !n.self.sole.removed) = false

/-- Every branch opened so far is open still or done. -/
def Tended (courses : (k : Nat) → Course (τ k)) (n : Node (Canopy α) τ) : Prop :=
  ∀ b ∈ n.self.opened, b ∈ n.self.flat.stack ∨ Done courses n b

/-- A flattening is spent when it was started, holds no leaf, and has closed all its branches. -/
def knot (courses : (k : Nat) → Course (τ k)) (mode : Mode) (cb : Callback α α) :
    Knot (Canopy α) τ where
  courses := courses
  Raises := cb.Raises mode
  Fit := Tended courses
  Ready n := n.self.flat.ahead.isSome = true
  Spent n := n.self.flat.started = true ∧ n.self.flat.ahead = none ∧ n.self.flat.stack = []
    ∧ ∀ b ∈ n.self.opened, Done courses n b
  not_spent := by
    intro n hready hspent
    rw [hspent.2.1] at hready
    exact absurd hready Bool.false_ne_true

section

variable {courses : (k : Nat) → Course (τ k)} {sources : (k : Nat) → Forward (τ k) α}
  {walk : α → Option Nat} {mode : Mode} {cb : Callback α α} {n : Node (Canopy α) τ} {b : Bough}

/-! ## §3. One branch. -/

/-- What holds after a branch was asked or stepped. -/
structure Served (courses : (k : Nat) → Course (τ k)) (mode : Mode) (cb : Callback α α)
    (n : Node (Canopy α) τ) {β : Type} (r : Except Failure β) (n' : Node (Canopy α) τ) : Prop where
  moved : (knot courses mode cb).Moved n r n'
  flat_eq : n'.self.flat = n.self.flat
  opened_eq : n'.self.opened = n.self.opened
  done : ∀ b, Done courses n b → Done courses n' b

/-- The state of one iterator has changed, and if it was spent it still is. -/
theorem done_put {k : Nat} {t : τ k} (h : (courses k).Spent (n.below k) → (courses k).Spent t)
    (b : Bough) (hb : Done courses n b) : Done courses ((Node.child k).set t n) b := by
  cases b with
  | sole => exact hb
  | walk j =>
      show (courses j).Spent (((Node.child k).set t n).below j)
      by_cases hjk : j = k
      · subst hjk
        rw [Node.below_child_set_self]
        exact h hb
      · rw [Node.below_child_set_of_ne n t hjk]
        exact hb

theorem after_ask (hsound : (knot courses mode cb).Sound sources)
    (hfits : (knot courses mode cb).Fits n) (b : Bough) :
    (elements sources b).hasNext.After n fun r n' => Served courses mode cb n r n'
      ∧ (r = .ok true → AtHand courses n' b) ∧ (r = .ok false → Done courses n' b) := by
  cases b with
  | walk k =>
      refine (Knot.after_ask hsound hfits k).mono ?_
      rintro r n' ⟨hmoved, t, rfl, hask⟩
      refine ⟨⟨hmoved, rfl, rfl, done_put fun h => hask.spent (hask.of_spent h)⟩, ?_, ?_⟩
      · intro hr
        show (courses k).Ready (((Node.child k).set t n).below k)
        rw [Node.below_child_set_self]
        exact hask.ready hr
      · intro hr
        show (courses k).Spent (((Node.child k).set t n).below k)
        rw [Node.below_child_set_self]
        exact hask.spent hr
  | sole =>
      show (Single.hasNext soleField).After n _
      unfold Single.hasNext
      apply Act.after_read
      exact Act.after_pure
        ⟨⟨Knot.moved_refl hfits _, rfl, rfl, fun _ h => h⟩, Except.ok.inj, Except.ok.inj⟩

theorem after_step (hsound : (knot courses mode cb).Sound sources)
    (hfits : (knot courses mode cb).Fits n) (hb : AtHand courses n b) :
    (elements sources b).next.After n fun r n' => Served courses mode cb n r n' := by
  cases b with
  | walk k =>
      refine (Knot.after_step_ready hsound hfits hb).mono ?_
      rintro r n' ⟨hmoved, t, rfl, hstep⟩
      exact ⟨hmoved, rfl, rfl, done_put fun h => absurd h ((courses k).not_spent hb)⟩
  | sole =>
      show (Single.next soleField).After n _
      unfold Single.next
      apply Act.after_read
      rw [if_pos (show ((soleField.get n).fresh && !(soleField.get n).removed) = true from hb)]
      apply Act.after_write
      refine Act.after_pure
        ⟨⟨hfits, (knot courses mode cb).course.later_refl n, nofun⟩, rfl, rfl, ?_⟩
      intro b' hb'
      cases b' with
      | walk k => exact hb'
      | sole => exact nomatch hb.symm.trans hb'

/-- The next value of a branch, and what the classifier makes of it. -/
theorem after_examine (hsound : (knot courses mode cb).Sound sources)
    (hfits : (knot courses mode cb).Fits n) (hb : AtHand courses n b) :
    ((elements sources b).next >>= cb.ask mode).After n fun r n' =>
      Served courses mode cb n r n' := by
  refine (after_step hsound hfits hb).bind ?_ ?_
  · intro y n₁ hstepped
    refine (Callback.after_ask rfl hstepped.moved.fits y).mono ?_
    rintro r n₂ ⟨hcalled, rfl⟩
    refine ⟨hstepped.moved.trans hcalled, hstepped.flat_eq, hstepped.opened_eq, ?_⟩
    intro b' hb'
    have hdone := hstepped.done b' hb'
    cases b' <;> exact hdone
  · intro e n₁ h
    exact ⟨h.moved.error, h.flat_eq, h.opened_eq, h.done⟩

/-- A value that is a branch is opened. -/
theorem after_branch (walk : α → Option Nat) (x : α) (n : Node (Canopy α) τ) :
    (branch walk x).After n fun r n' => ∃ o : Option Bough, r = .ok o
      ∧ n' = Node.own.set { n.self with opened := o.toList ++ n.self.opened } n := by
  unfold branch
  cases walk x with
  | none => exact Act.after_pure ⟨none, rfl, rfl⟩
  | some k =>
      apply Act.after_modify
      exact Act.after_pure ⟨some (.walk k), rfl, rfl⟩

/-! ## §4. The next leaf. -/

/-- What holds after the next leaf was searched for. -/
structure Sought (courses : (k : Nat) → Course (τ k)) (mode : Mode) (cb : Callback α α)
    (n : Node (Canopy α) τ) (r : Except Failure (Option α)) (n' : Node (Canopy α) τ) : Prop where
  moved : (knot courses mode cb).Moved n r n'
  tended : Tended courses n'
  started_eq : n'.self.flat.started = n.self.flat.started
  ahead_eq : n'.self.flat.ahead = n.self.flat.ahead
  of_empty : n.self.flat.stack = [] → r = .ok none
  empty : r = .ok none → n'.self.flat.stack = []

/-- A search that goes on from a later state, of a flattening with open branches. -/
theorem Sought.of_later {β : Type} {a : β} {r : Except Failure (Option α)}
    {n₁ n' : Node (Canopy α) τ} (h : Sought courses mode cb n₁ r n')
    (hmoved : (knot courses mode cb).Moved n (.ok a) n₁)
    (hstarted : n₁.self.flat.started = n.self.flat.started)
    (hahead : n₁.self.flat.ahead = n.self.flat.ahead) (hfull : n.self.flat.stack ≠ []) :
    Sought courses mode cb n r n' where
  moved := hmoved.trans h.moved
  tended := h.tended
  started_eq := h.started_eq.trans hstarted
  ahead_eq := h.ahead_eq.trans hahead
  of_empty hempty := absurd hempty hfull
  empty := h.empty

theorem Served.tended {β : Type} {r : Except Failure β} {n' : Node (Canopy α) τ}
    (h : Served courses mode cb n r n') (htended : Tended courses n) : Tended courses n' := by
  intro b hb
  rw [h.opened_eq] at hb
  rw [h.flat_eq]
  exact (htended b hb).imp_right (h.done b)

/-- The deepest branch may be closed when it is done. -/
theorem Tended.closed (h : Tended courses n) {below : List Bough}
    (hstack : n.self.flat.stack = b :: below) (hdone : Done courses n b) :
    Tended courses (flatField.set { n.self.flat with stack := below } n) := by
  intro b' hb'
  obtain hopen | hdone' := h b' hb'
  · rw [hstack] at hopen
    obtain rfl | hbelow := List.mem_cons.mp hopen
    · exact .inr (by cases b' <;> exact hdone)
    · exact .inl hbelow
  · exact .inr (by cases b' <;> exact hdone')

/-- A branch may be opened and put on top. -/
theorem Tended.pushed (h : Tended courses n) (b : Bough) :
    Tended courses (flatField.set { n.self.flat with stack := b :: n.self.flat.stack }
      (Node.own.set { n.self with opened := b :: n.self.opened } n)) := by
  intro b' hb'
  obtain rfl | hb' := List.mem_cons.mp hb'
  · exact .inl List.mem_cons_self
  · obtain hopen | hdone := h b' hb'
    · exact .inl (List.mem_cons_of_mem _ hopen)
    · exact .inr (by cases b' <;> exact hdone)

theorem close_apply {below : List Bough} (hstack : n.self.flat.stack = b :: below) :
    Flatten.close flatField n
      = .value () (flatField.set { n.self.flat with stack := below } n) := by
  simp only [Flatten.close, Act.bind_apply, Field.read_apply, Field.modify_apply, flatField, hstack]

theorem sought (hsound : (knot courses mode cb).Sound sources) (fuel : Nat)
    (hfits : (knot courses mode cb).Fits n) (htended : Tended courses n) :
    (Flatten.search flatField (nesting sources walk mode cb) fuel).After n
      (Sought courses mode cb n) := by
  induction fuel generalizing n with
  | zero => exact Act.after_of_unfinished rfl
  | succ fuel ih =>
      unfold Flatten.search
      apply Act.after_read
      cases hstack : n.self.flat.stack with
      | nil =>
          rw [show (flatField.get n).stack = [] from hstack]
          exact Act.after_pure ⟨Knot.moved_refl hfits _, htended, rfl, rfl, fun _ => rfl,
            fun _ => hstack⟩
      | cons top below =>
          rw [show (flatField.get n).stack = top :: below from hstack]
          have hfull : n.self.flat.stack ≠ [] := by
            rw [hstack]
            exact List.cons_ne_nil top below
          refine (after_ask hsound hfits top).bind ?_ ?_
          · rintro more n₁ ⟨hserved, hready, hdone⟩
            cases more with
            | false =>
                have hstack₁ : n₁.self.flat.stack = top :: below := by
                  rw [hserved.flat_eq, hstack]
                have hclosed := (hserved.tended htended).closed hstack₁ (hdone rfl)
                apply Act.After.bind_value (close_apply hstack₁)
                refine (ih ?_ hclosed).mono ?_
                · exact hserved.moved.fits
                · intro r n' h
                  have hstarted : n₁.self.flat.started = n.self.flat.started :=
                    congrArg _ hserved.flat_eq
                  have hahead : n₁.self.flat.ahead = n.self.flat.ahead := congrArg _ hserved.flat_eq
                  exact h.of_later (hserved.moved.set_own _) hstarted hahead hfull
            | true =>
                rw [if_pos rfl, ← bind_assoc]
                refine (after_examine hsound hserved.moved.fits (hready rfl)).bind ?_ ?_
                · intro x n₂ hexamined
                  have hmoved := hserved.moved.trans hexamined.moved
                  have hflat := hexamined.flat_eq.trans hserved.flat_eq
                  have htended₂ := hexamined.tended (hserved.tended htended)
                  have hstarted : n₂.self.flat.started = n.self.flat.started := congrArg _ hflat
                  have hahead : n₂.self.flat.ahead = n.self.flat.ahead := congrArg _ hflat
                  refine (after_branch walk x _).bind ?_ nofun
                  rintro opened n₃ ⟨_, ⟨⟩, rfl⟩
                  cases opened with
                  | none =>
                      exact Act.after_pure ⟨(hmoved.set_own _).answer _, htended₂, hstarted,
                        hahead, fun h => absurd h hfull, nofun⟩
                  | some b =>
                      have hpushed := htended₂.pushed b
                      apply Act.after_modify
                      refine (ih ?_ ?_).mono ?_
                      · exact hmoved.fits
                      · exact hpushed
                      · intro r n' h
                        exact h.of_later (hmoved.set_own _) hstarted hahead hfull
                · intro e n₂ h
                  have hflat := h.flat_eq.trans hserved.flat_eq
                  exact ⟨(hserved.moved.trans h.moved).error, h.tended (hserved.tended htended),
                    congrArg _ hflat, congrArg _ hflat, fun h => absurd h hfull, nofun⟩
          · rintro e n₁ ⟨hserved, -, -⟩
            exact ⟨hserved.moved.error, hserved.tended htended, congrArg _ hserved.flat_eq,
              congrArg _ hserved.flat_eq, fun h => absurd h hfull, nofun⟩

/-! ## §5. Opening the root. -/

/-- What holds after the root was opened. -/
structure Started (courses : (k : Nat) → Course (τ k)) (mode : Mode) (cb : Callback α α)
    (n : Node (Canopy α) τ) (r : Except Failure Unit) (n' : Node (Canopy α) τ) : Prop where
  ok : r = .ok ()
  moved : (knot courses mode cb).Moved n r n'
  tended : Tended courses n'
  started : n'.self.flat.started = true
  ahead_eq : n'.self.flat.ahead = n.self.flat.ahead

/-- The root alone may be opened and put on top. -/
theorem Tended.pushed_sole (h : Tended courses n) (x : α) :
    Tended courses (flatField.set { n.self.flat with stack := .sole :: n.self.flat.stack }
      (Node.own.set { n.self with sole := { item := x }, opened := .sole :: n.self.opened } n))
    := by
  intro b hb
  cases b with
  | sole => exact .inl List.mem_cons_self
  | walk k =>
      obtain hb | hb := List.mem_cons.mp hb
      · exact nomatch hb
      · exact (h _ hb).imp_left (List.mem_cons_of_mem _)

theorem after_start (hfits : (knot courses mode cb).Fits n) (htended : Tended courses n) :
    (Flatten.start flatField (nesting sources walk mode cb)).After n
      (Started courses mode cb n) := by
  have hmoved : (knot courses mode cb).Moved n (.ok ()) n := Knot.moved_refl hfits ()
  unfold Flatten.start
  apply Act.after_read
  apply Act.after_modify
  cases hroot : n.self.flat.root with
  | none =>
      rw [show (flatField.get n).root = none from hroot]
      exact Act.after_pure ⟨rfl, hmoved.set_own _, htended, rfl, rfl⟩
  | some root =>
      rw [show (flatField.get n).root = some root from hroot]
      refine (after_branch walk root _).bind ?_ nofun
      rintro opened n₁ ⟨_, ⟨⟩, rfl⟩
      cases opened with
      | some b =>
          have hpushed := htended.pushed b
          exact ⟨rfl, hmoved.set_own _, hpushed, rfl, rfl⟩
      | none =>
          have hpushed := htended.pushed_sole root
          exact ⟨rfl, hmoved.set_own _, hpushed, rfl, rfl⟩

/-! ## §6. The operations. -/

/-- What holds after the next leaf was searched for, and the root opened if need be. -/
structure Found (courses : (k : Nat) → Course (τ k)) (mode : Mode) (cb : Callback α α)
    (n : Node (Canopy α) τ) (r : Except Failure (Option α)) (n' : Node (Canopy α) τ) : Prop where
  moved : (knot courses mode cb).Moved n r n'
  tended : Tended courses n'
  of_spent : (knot courses mode cb).Spent n → r = .ok none
  spent : r = .ok none → n.self.flat.ahead = none → (knot courses mode cb).Spent n'

/-- Without open branches all that were opened are done. -/
theorem Sought.spent {n' : Node (Canopy α) τ} (h : Sought courses mode cb n (.ok none) n')
    (hstarted : n.self.flat.started = true) (hahead : n.self.flat.ahead = none) :
    (knot courses mode cb).Spent n' := by
  have hempty := h.empty rfl
  refine ⟨h.started_eq.trans hstarted, h.ahead_eq.trans hahead, hempty, ?_⟩
  intro b hb
  obtain hopen | hdone := h.tended b hb
  · rw [hempty] at hopen
    exact absurd hopen List.not_mem_nil
  · exact hdone

theorem found (hsound : (knot courses mode cb).Sound sources) (fuel : Nat)
    (hfit : (knot courses mode cb).course.Fit n) :
    (Flatten.find fuel flatField (nesting sources walk mode cb)).After n
      (Found courses mode cb n) := by
  unfold Flatten.find
  apply Act.after_read
  cases hstarted : n.self.flat.started with
  | true =>
      rw [show (flatField.get n).started = true from hstarted]
      refine (sought hsound fuel hfit.1 hfit.2).mono ?_
      intro r n' h
      refine ⟨h.moved, h.tended, fun hspent => h.of_empty hspent.2.2.1, ?_⟩
      rintro rfl hahead
      exact h.spent hstarted hahead
  | false =>
      rw [show (flatField.get n).started = false from hstarted]
      refine (after_start hfit.1 hfit.2).bind ?_ (fun e n' h => nomatch h.ok)
      intro _ n₁ hstart
      refine (sought hsound fuel hstart.moved.fits hstart.tended).mono ?_
      intro r n' h
      refine ⟨hstart.moved.trans h.moved, h.tended, fun hspent => ?_, ?_⟩
      · exact nomatch hstarted.symm.trans hspent.1
      · rintro rfl hahead
        exact h.spent hstart.started (hstart.ahead_eq.trans hahead)

theorem not_ready (hahead : n.self.flat.ahead = none) : ¬ (knot courses mode cb).Ready n := by
  show ¬ n.self.flat.ahead.isSome = true
  rw [hahead]
  exact Bool.false_ne_true

theorem asked (hsound : (knot courses mode cb).Sound sources) (fuel : Nat)
    (hfit : (knot courses mode cb).course.Fit n) :
    (upon sources walk mode cb fuel).hasNext.After n ((knot courses mode cb).course.Asked n) := by
  show (Flatten.hasNext fuel flatField (nesting sources walk mode cb)).After n _
  unfold Flatten.hasNext
  apply Act.after_read
  cases hahead : n.self.flat.ahead with
  | some x =>
      have hready : n.self.flat.ahead.isSome = true := by
        rw [hahead]
        rfl
      rw [show (flatField.get n).ahead = some x from hahead]
      exact Act.after_pure (Course.asked_true hfit hready)
  | none =>
      have hnot : ¬ (knot courses mode cb).Ready n := not_ready hahead
      rw [show (flatField.get n).ahead = none from hahead]
      refine (found hsound fuel hfit).bind ?_ ?_
      · intro leaf n' h
        cases leaf with
        | some x =>
            have htended := h.tended
            apply Act.after_modify
            exact Act.after_pure (Course.asked_ok ⟨h.moved.fits, htended⟩ h.moved.later
              (fun _ => ⟨rfl, fun hspent => nomatch h.of_spent hspent⟩) nofun)
        | none =>
            exact Act.after_pure (Course.asked_ok ⟨h.moved.fits, h.tended⟩ h.moved.later nofun
              fun _ => ⟨h.spent rfl hahead, hnot⟩)
      · intro e n' h
        exact Course.asked_error ⟨h.moved.fits, h.tended⟩ h.moved.later hnot
          (fun hspent => nomatch h.of_spent hspent) (h.moved.raised e rfl)

theorem stepped (hsound : (knot courses mode cb).Sound sources) (fuel : Nat)
    (hfit : (knot courses mode cb).course.Fit n) :
    (upon sources walk mode cb fuel).next.After n ((knot courses mode cb).course.Stepped n) := by
  show (Flatten.next fuel flatField (nesting sources walk mode cb)).After n _
  unfold Flatten.next
  apply Act.after_read
  cases hahead : n.self.flat.ahead with
  | some x =>
      have hopen : ¬ (knot courses mode cb).Spent n := fun hspent =>
        nomatch hahead.symm.trans hspent.2.1
      have htended : Tended courses n := hfit.2
      rw [show (flatField.get n).ahead = some x from hahead]
      apply Act.after_modify
      exact Act.after_pure (Course.stepped_ok ⟨hfit.1, htended⟩
        ((knot courses mode cb).course.later_refl n) hopen)
  | none =>
      have hnot : ¬ (knot courses mode cb).Ready n := not_ready hahead
      rw [show (flatField.get n).ahead = none from hahead]
      refine (found hsound fuel hfit).bind ?_ ?_
      · intro leaf n' h
        cases leaf with
        | some x =>
            have htended := h.tended
            apply Act.after_modify
            exact Act.after_pure (Course.stepped_ok ⟨h.moved.fits, htended⟩ h.moved.later
              fun hspent => nomatch h.of_spent hspent)
        | none =>
            exact Act.after_fail (Course.stepped_ended ⟨h.moved.fits, h.tended⟩ h.moved.later
              (h.spent rfl hahead) hnot)
      · intro e n' h
        exact Course.stepped_error ⟨h.moved.fits, h.tended⟩ h.moved.later
          (fun hspent => nomatch h.of_spent hspent) (h.moved.raised e rfl)

theorem sound (hsound : ∀ k, (courses k).Sound (sources k)) (walk : α → Option Nat) (mode : Mode)
    (cb : Callback α α) (fuel : Nat) :
    (knot courses mode cb).course.Sound (upon sources walk mode cb fuel) where
  hasNext _ := asked hsound fuel
  next _ := stepped hsound fuel

end

end Canopy

end Cursors
