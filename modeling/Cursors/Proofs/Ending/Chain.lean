/-
  Cursors.Proofs.Ending.Chain
  ───────────────────────────
  **THE END OF A CHAIN.**

  A chain turns to its next member only when the present one is spent, so
  that all members before the present one are (`Placed`).  Once a chain has
  settled, either its present member has the next element at hand or all
  members are spent (`Turned`); it cannot end in between.
-/
import Mathlib.Data.List.FinRange
import Cursors.Combinator.Chain
import Cursors.Proofs.Ending.Node

namespace Cursors.Chain

variable {N : Nat} {τ : Fin N → Type} {α : Type}

/-! ## §1. Where a chain stands. -/

/-- The members are in order, and those before the present one are spent. -/
structure Placed (courses : (i : Fin N) → Course (τ i)) (n : Node (Chain (Fin N)) τ) : Prop where
  members_eq : n.self.members = List.finRange N
  of_none : n.self.current = none → n.self.position = 0
  position_eq : ∀ {m}, n.self.current = some m → n.self.position = m
  before : ∀ {m j}, n.self.current = some m → j < m → (courses j).Spent (n.below j)

/-- A chain is spent when all its members are. -/
def knot (courses : (i : Fin N) → Course (τ i)) : Knot (Chain (Fin N)) τ where
  courses := courses
  Raises _ _ := False
  Fit := Placed courses
  Ready n := ∃ m, n.self.current = some m ∧ (courses m).Ready (n.below m)
  Spent n := ∀ j, (courses j).Spent (n.below j)
  not_spent := by
    rintro n ⟨m, -, hready⟩ hspent
    exact (courses m).not_spent hready (hspent m)

/-- A chain of sources. -/
def upon (sources : (i : Fin N) → Forward (τ i) α) : Forward (Node (Chain (Fin N)) τ) α :=
  forward Node.own (fun i => (sources i).within (Node.child i)) fun _ => pure ()

/-! ## §2. Settling. -/

section

variable {courses : (i : Fin N) → Course (τ i)} {sources : (i : Fin N) → Forward (τ i) α}
  {n : Node (Chain (Fin N)) τ} {m : Fin N}

theorem Placed.following (h : Placed courses n) (hm : n.self.current = some m)
    (hlast : m.val + 1 < N) :
    (Node.own.get n).members[(Node.own.get n).position + 1]? = some ⟨m.val + 1, hlast⟩ := by
  show n.self.members[n.self.position + 1]? = _
  rw [h.members_eq, h.position_eq hm, List.getElem?_eq_getElem (by simpa using hlast),
    List.getElem_finRange]
  rfl

theorem Placed.following_of_last (h : Placed courses n) (hm : n.self.current = some m)
    (hlast : ¬ m.val + 1 < N) :
    (Node.own.get n).members[(Node.own.get n).position + 1]? = none := by
  show n.self.members[n.self.position + 1]? = none
  rw [h.members_eq, h.position_eq hm]
  exact List.getElem?_eq_none (by simpa using hlast)

/-- Once the last member is spent, all are. -/
theorem Placed.spent_of_last (h : Placed courses n) (hm : n.self.current = some m)
    (hspent : (courses m).Spent (n.below m)) (hlast : ¬ m.val + 1 < N) :
    (knot courses).Spent n := by
  intro j
  by_cases hjm : j = m
  · subst hjm
    exact hspent
  · exact h.before hm (by omega)

theorem Placed.not_ready (hm : n.self.current = some m)
    (hnot : ¬ (courses m).Ready (n.below m)) : ¬ (knot courses).Ready n := by
  rintro ⟨m', hm', hready⟩
  obtain rfl := Option.some.inj (hm.symm.trans hm')
  exact hnot hready

/-- A spent member takes nothing away from a spent chain. -/
theorem spent_put {t : τ m} (h : (knot courses).Spent n) (ht : (courses m).Spent t) :
    (knot courses).Spent ((Node.child m).set t n) := by
  intro j
  by_cases hjm : j = m
  · subst hjm
    rw [Node.below_child_set_self]
    exact ht
  · rw [Node.below_child_set_of_ne n t hjm]
    exact h j

/-- The present member may move. -/
theorem Placed.put (h : Placed courses n) (hm : n.self.current = some m) (t : τ m) :
    Placed courses ((Node.child m).set t n) where
  members_eq := h.members_eq
  of_none := h.of_none
  position_eq := h.position_eq
  before := by
    intro m' j hm' hj
    obtain rfl := Option.some.inj (hm.symm.trans hm')
    rw [Node.below_child_set_of_ne n t (Fin.ne_of_lt hj)]
    exact h.before hm hj

/-- The chain may turn to the next member when the present one is spent. -/
theorem Placed.turn (h : Placed courses n) (hm : n.self.current = some m)
    (hspent : (courses m).Spent (n.below m)) {following : Fin N}
    (hfollowing : following.val = m.val + 1) :
    Placed courses
      (Node.own.set { n.self with position := n.self.position + 1, current := some following } n)
    where
  members_eq := h.members_eq
  of_none := nofun
  position_eq := by
    intro m' hm'
    obtain rfl := Option.some.inj hm'
    have hposition := h.position_eq hm
    show n.self.position + 1 = _
    omega
  before := by
    intro m' j hm' hj
    obtain rfl := Option.some.inj hm'
    by_cases hjm : j = m
    · subst hjm
      exact hspent
    · exact h.before hm (by omega)

/-- A new chain may turn to its first member. -/
theorem Placed.start (h : Placed courses n) (hnone : n.self.current = none) {rest : List (Fin N)}
    (hmembers : n.self.members = m :: rest) :
    Placed courses (Node.own.set { n.self with current := some m } n) := by
  have hzero : m.val = 0 := by
    have hlist : List.finRange N = m :: rest := h.members_eq.symm.trans hmembers
    have hpos : 0 < (List.finRange N).length := by
      rw [hlist]
      exact Nat.succ_pos _
    have hfirst : (List.finRange N)[0] = m := by
      simp only [hlist, List.getElem_cons_zero]
    rw [← hfirst, List.getElem_finRange]
    rfl
  refine ⟨h.members_eq, nofun, ?_, ?_⟩
  · intro m' hm'
    obtain rfl := Option.some.inj hm'
    show n.self.position = m.val
    rw [h.of_none hnone, hzero]
  · intro m' j hm' hj
    obtain rfl := Option.some.inj hm'
    omega

/-- What holds once the chain has turned to the member to be used. -/
structure Turned (courses : (i : Fin N) → Course (τ i)) (n : Node (Chain (Fin N)) τ)
    (r : Except Failure Unit) (n' : Node (Chain (Fin N)) τ) : Prop where
  moved : (knot courses).Moved n r n'
  placed : Placed courses n'
  stands : r = .ok () → (knot courses).Ready n' ∨ (knot courses).Spent n'
  of_ready : (knot courses).Ready n → r = .ok () ∧ (knot courses).Ready n'
  of_spent : (knot courses).Spent n → r = .ok () ∧ (knot courses).Spent n'

theorem turned_of_advance (hsound : (knot courses).Sound sources) {steps : Nat}
    (hfits : (knot courses).Fits n) (hplaced : Placed courses n) (hm : n.self.current = some m)
    (hsteps : N ≤ m.val + steps) :
    (advance Node.own (fun i => (sources i).within (Node.child i)) steps).After n
      (Turned courses n) := by
  induction steps generalizing n m with
  | zero => exact absurd hsteps (Nat.not_le.mpr m.isLt)
  | succ steps ih =>
      unfold advance
      apply Act.after_read
      rw [show (Node.own.get n).current = some m from hm]
      refine (Knot.after_ask hsound hfits m).bind ?_ ?_
      · rintro more n₁ ⟨hmoved, t, rfl, hask⟩
        have hplaced₁ := hplaced.put hm t
        cases more with
        | true =>
            have hready : (knot courses).Ready ((Node.child m).set t n) := by
              refine ⟨m, hm, ?_⟩
              rw [Node.below_child_set_self]
              exact hask.ready rfl
            exact Act.after_pure ⟨hmoved.answer _, hplaced₁,
              fun _ => .inl hready, fun _ => ⟨rfl, hready⟩,
              fun hspent => absurd (hspent m) (hask.not_spent (by simp))⟩
        | false =>
            have ht := hask.spent rfl
            have hspent : (courses m).Spent (((Node.child m).set t n).below m) := by
              rw [Node.below_child_set_self]
              exact ht
            have hnot := Placed.not_ready hm (hask.not_ready (by simp))
            apply Act.after_read
            by_cases hlast : m.val + 1 < N
            · rw [hplaced₁.following hm hlast]
              apply Act.after_modify
              -- The rest of the way starts at the next member.
              have hnext : (⟨m.val + 1, hlast⟩ : Fin N).val = m.val + 1 := rfl
              have hturned := hplaced₁.turn hm hspent hnext
              have hsteps' : N ≤ m.val + 1 + steps := by omega
              refine (ih ?_ hturned rfl hsteps').mono ?_
              · exact hmoved.fits
              intro r n' h
              exact ⟨hmoved.trans h.moved.of_own, h.placed, h.stands,
                fun hready => absurd hready hnot, fun hall => h.of_spent (spent_put hall ht)⟩
            · rw [hplaced₁.following_of_last hm hlast]
              exact Act.after_pure ⟨hmoved.answer _, hplaced₁,
                fun _ => .inr (hplaced₁.spent_of_last hm hspent hlast),
                fun hready => absurd hready hnot, fun hall => ⟨rfl, spent_put hall ht⟩⟩
      · rintro e n₁ ⟨hmoved, t, rfl, hask⟩
        refine ⟨hmoved.error, hplaced.put hm t, nofun, ?_, ?_⟩
        · intro hready
          exact absurd hready (Placed.not_ready hm (hask.not_ready (by simp)))
        · intro hspent
          exact absurd (hspent m) (hask.not_spent (by simp))

/-- A chain that was used settles at the member to be used. -/
theorem turned_of_locked (hsound : (knot courses).Sound sources)
    (hfits : (knot courses).Fits n) (hplaced : Placed courses n) (hlocked : n.self.locked = true) :
    (settle Node.own (fun i => (sources i).within (Node.child i)) fun _ => pure ()).After n
      (Turned courses n) := by
  unfold settle
  apply Act.after_read
  rw [show (Node.own.get n).locked = true from hlocked]
  apply Act.after_read
  cases hcurrent : n.self.current with
  | some m =>
      rw [show (Node.own.get n).current = some m from hcurrent]
      refine turned_of_advance hsound hfits hplaced hcurrent ?_
      show N ≤ m.val + n.self.members.length
      rw [hplaced.members_eq, List.length_finRange]
      exact Nat.le_add_left N m.val
  | none =>
      rw [show (Node.own.get n).current = none from hcurrent]
      cases hmembers : n.self.members with
      | nil =>
          have hspent : (knot courses).Spent n := by
            intro j
            have hempty : List.finRange N = [] := hplaced.members_eq.symm.trans hmembers
            exact absurd (List.mem_finRange j) (by rw [hempty]; exact List.not_mem_nil)
          have hnot : ¬ (knot courses).Ready n := fun hready =>
            (knot courses).not_spent hready hspent
          rw [show (Node.own.get n).members = [] from hmembers]
          exact Act.after_pure ⟨Knot.moved_refl hfits _, hplaced, fun _ => .inr hspent,
            fun hready => absurd hready hnot, fun _ => ⟨rfl, hspent⟩⟩
      | cons first rest =>
          rw [show (Node.own.get n).members = first :: rest from hmembers]
          apply Act.after_modify
          have hstart := hplaced.start hcurrent hmembers
          refine (turned_of_advance hsound ?_ hstart rfl ?_).mono ?_
          · exact hfits
          · rw [← hmembers, hplaced.members_eq, List.length_finRange]
            exact Nat.le_add_left N first.val
          · intro r n' h
            refine ⟨h.moved.of_own, h.placed, h.stands, ?_, h.of_spent⟩
            rintro ⟨m, hm, -⟩
            exact nomatch hcurrent.symm.trans hm

/-- The first use closes the chain, which makes no difference to what follows. -/
theorem settle_of_open (hopen : n.self.locked = false) :
    settle Node.own (fun i => (sources i).within (Node.child i)) (fun _ => pure ()) n
      = settle Node.own (fun i => (sources i).within (Node.child i)) (fun _ => pure ())
        (Node.own.set { n.self with locked := true } n) := by
  simp only [settle, Act.bind_apply, Field.read_apply, Field.modify_apply, Act.pure_apply,
    Node.own, hopen, Bool.not_false, Bool.not_true, if_true, Bool.false_eq_true, if_false]

theorem Placed.locked (h : Placed courses n) :
    Placed courses (Node.own.set { n.self with locked := true } n) :=
  ⟨h.members_eq, h.of_none, h.position_eq, h.before⟩

theorem turned (hsound : (knot courses).Sound sources)
    (hfits : (knot courses).Fits n) (hplaced : Placed courses n) :
    (settle Node.own (fun i => (sources i).within (Node.child i)) fun _ => pure ()).After n
      (Turned courses n) := by
  cases hlocked : n.self.locked with
  | true => exact turned_of_locked hsound hfits hplaced hlocked
  | false =>
      have hlater := turned_of_locked (n := Node.own.set { n.self with locked := true } n) hsound
        hfits hplaced.locked rfl
      refine (hlater.of_eq (settle_of_open hlocked)).mono ?_
      intro r n' h
      exact ⟨h.moved.of_own, h.placed, h.stands, h.of_ready, h.of_spent⟩

/-! ## §3. The operations. -/

/-- Where no member is present, there is none. -/
theorem Turned.spent_of_none {n' : Node (Chain (Fin N)) τ} (h : Turned courses n (.ok ()) n')
    (hnone : n'.self.current = none) : (knot courses).Spent n' := by
  obtain ⟨m, hm, -⟩ | hspent := h.stands rfl
  · exact nomatch hnone.symm.trans hm
  · exact hspent

theorem Turned.not_ready {r : Except Failure Unit} {n' : Node (Chain (Fin N)) τ}
    (h : Turned courses n r n') (hspent : (knot courses).Spent n') : ¬ (knot courses).Ready n :=
  fun hready => (knot courses).not_spent (h.of_ready hready).2 hspent

theorem Turned.not_spent {r : Except Failure Unit} {n' : Node (Chain (Fin N)) τ}
    (h : Turned courses n r n') (hready : (knot courses).Ready n') : ¬ (knot courses).Spent n :=
  fun hspent => (knot courses).not_spent hready (h.of_spent hspent).2

theorem asked (hsound : (knot courses).Sound sources) (hfit : (knot courses).course.Fit n) :
    (upon sources).hasNext.After n ((knot courses).course.Asked n) := by
  show (hasNext Node.own _ _).After n _
  unfold hasNext
  refine (turned hsound hfit.1 hfit.2).bind ?_ ?_
  · rintro ⟨⟩ n₁ hturned
    apply Act.after_read
    cases hcurrent : n₁.self.current with
    | none =>
        have hspent := hturned.spent_of_none hcurrent
        rw [show (Node.own.get n₁).current = none from hcurrent]
        exact Act.after_pure (Course.asked_ok ⟨hturned.moved.fits, hturned.placed⟩
          hturned.moved.later nofun fun _ => ⟨hspent, hturned.not_ready hspent⟩)
    | some m =>
        rw [show (Node.own.get n₁).current = some m from hcurrent]
        refine (Knot.after_ask hsound hturned.moved.fits m).mono ?_
        rintro r n₂ ⟨hmoved, t, rfl, hask⟩
        have hplaced := hturned.placed.put hcurrent t
        have hmoved := hturned.moved.trans hmoved
        obtain ⟨m', hm', hready⟩ | hspent := hturned.stands rfl
        · obtain rfl := Option.some.inj (hcurrent.symm.trans hm')
          obtain rfl := hask.of_ready hready
          refine Course.asked_ok ⟨hmoved.fits, hplaced⟩ hmoved.later (fun _ => ⟨?_, ?_⟩) nofun
          · refine ⟨m, hcurrent, ?_⟩
            rw [Node.below_child_set_self]
            exact hask.ready rfl
          · exact hturned.not_spent ⟨m, hcurrent, hready⟩
        · obtain rfl := hask.of_spent (hspent m)
          exact Course.asked_ok ⟨hmoved.fits, hplaced⟩ hmoved.later nofun
            fun _ => ⟨spent_put hspent (hask.spent rfl), hturned.not_ready hspent⟩
  · intro e n₁ h
    refine Course.asked_error ⟨h.moved.fits, h.placed⟩ h.moved.later ?_ ?_ (h.moved.raised e rfl)
    · exact fun hready => nomatch (h.of_ready hready).1
    · exact fun hspent => nomatch (h.of_spent hspent).1

theorem stepped (hsound : (knot courses).Sound sources) (hfit : (knot courses).course.Fit n) :
    (upon sources).next.After n ((knot courses).course.Stepped n) := by
  show (next Node.own _ _).After n _
  unfold next
  refine (turned hsound hfit.1 hfit.2).bind ?_ ?_
  · rintro ⟨⟩ n₁ hturned
    apply Act.after_read
    cases hcurrent : n₁.self.current with
    | none =>
        have hspent := hturned.spent_of_none hcurrent
        rw [show (Node.own.get n₁).current = none from hcurrent]
        exact Act.after_fail (Course.stepped_ended ⟨hturned.moved.fits, hturned.placed⟩
          hturned.moved.later hspent (hturned.not_ready hspent))
    | some m =>
        rw [show (Node.own.get n₁).current = some m from hcurrent]
        obtain ⟨m', hm', hready⟩ | hspent := hturned.stands rfl
        · obtain rfl := Option.some.inj (hcurrent.symm.trans hm')
          have hopen := hturned.not_spent ⟨m, hcurrent, hready⟩
          refine (Knot.after_step_ready hsound hturned.moved.fits hready).bind ?_ ?_
          · rintro x n₂ ⟨hmoved, t, rfl, hstep⟩
            have hmoved := hturned.moved.trans hmoved
            have hplaced := hturned.placed.put hcurrent t
            apply Act.after_modify
            exact Act.after_pure (Course.stepped_ok ⟨hmoved.fits, hplaced.members_eq,
              hplaced.of_none, hplaced.position_eq, hplaced.before⟩ hmoved.later hopen)
          · rintro e n₂ ⟨hmoved, t, rfl, hstep⟩
            have hmoved := hturned.moved.trans hmoved
            exact Course.stepped_error ⟨hmoved.fits, hturned.placed.put hcurrent t⟩ hmoved.later
              hopen (hmoved.raised e rfl)
        · refine (Knot.after_step hsound hturned.moved.fits m).bind ?_ ?_
          · rintro x n₂ ⟨t, rfl, hstep⟩
            exact nomatch (hstep.of_spent (hspent m)).1
          · rintro e n₂ ⟨t, rfl, hstep⟩
            obtain ⟨he, ht⟩ := hstep.of_spent (hspent m)
            obtain rfl := Except.error.inj he
            exact Course.stepped_ended
              ⟨Knot.fits_put hturned.moved.fits hstep.fit, hturned.placed.put hcurrent t⟩
              ((knot courses).course.later_trans hturned.moved.later (Knot.later_put hstep.later))
              (spent_put hspent ht) (hturned.not_ready hspent)
  · intro e n₁ h
    refine Course.stepped_error ⟨h.moved.fits, h.placed⟩ h.moved.later ?_ (h.moved.raised e rfl)
    exact fun hspent => nomatch (h.of_spent hspent).1

theorem sound (hsound : ∀ i, (courses i).Sound (sources i)) :
    (knot courses).course.Sound (upon sources) where
  hasNext _ := asked hsound
  next _ := stepped hsound

end

end Cursors.Chain
