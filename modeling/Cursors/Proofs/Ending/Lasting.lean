/-
  Cursors.Proofs.Ending.Lasting
  ─────────────────────────────
  **WHAT IS SPENT STAYS SPENT.**

  Most combinators do not write down that they have ended: they ask their
  sources again each time.  So an end lasts only if it lasts below, and if
  no removal brings anything back.  `Course.Lasting` says both of a source:

      at its end  each question is answered by no, each step by an end,
                  and the source is at its end still
      removals    come to something, leave a state in which the source can
                  be, and leave what is spent spent

  A node lasts where its sources do, one lemma for each combinator.  A chain
  may remove from a member that it has left long ago, and a merge from any
  of its sources; neither needs to know which, for what is spent is spared.
-/
import Cursors.Proofs.Ending.Assembly

namespace Cursors

variable {ρ ι τ α β : Type}

/-! ## §1. Lasting ends. -/

namespace Course

/-- Nothing is left, in a state in which the source can be. -/
def AtEnd (c : Course τ) (t : τ) : Prop := c.Fit t ∧ c.Spent t

/-- From an end the action comes to `r`, and to an end again. -/
def Settled (c : Course τ) (x : Act τ β) (r : Except Failure β) : Prop :=
  ∀ t, c.AtEnd t → ∃ t', x t = .of r t' ∧ c.AtEnd t'

/-- The action comes to something, and what was spent before is spent then. -/
def Spares (c : Course τ) (x : Act τ β) : Prop :=
  ∀ t, c.Fit t → ∃ r t', x t = .of r t' ∧ c.Fit t' ∧ (c.Spent t → c.Spent t')

/-- An end of the source lasts, whatever is removed from it. -/
structure Lasting (c : Course τ) (source : Forward τ α) : Prop where
  hasNext : c.Settled source.hasNext (.ok false)
  next : c.Settled source.next (.error .ended)
  remove : c.Spares source.remove

/-- A refusal changes nothing. -/
theorem spares_fail (c : Course τ) (e : Failure) : c.Spares (Act.fail e : Act τ β) := by
  intro t hfit
  exact ⟨.error e, t, rfl, hfit, id⟩

end Course

/-! ## §2. Sources of their own. -/

/-- Where nothing lies in front of the gap, a removal brings nothing there. -/
theorem Zipper.front_removed_of_nil {z : Zipper α} (h : z.front = []) : z.removed.front = [] := by
  unfold Zipper.removed
  split
  · exact h
  · rw [h]
    rfl
  · exact h

namespace Supply

theorem gives_halves : Gives (Cursor.twoWay .left (.ofList .right)).toForward
    ((halves Cursor (List α)).Has Cursor.Rest) :=
  Pair.gives_cursor (halves Cursor (List α))

/-- A cursor has the elements in front of its gap. -/
theorem has_of_spans {c : Cursor} {bound : Nat} {z : Zipper α} (hz : c.Spans bound z) :
    (halves Cursor (List α)).Has Cursor.Rest (c, z.items) z.front :=
  ⟨c, z.items, rfl, bound, z, rfl, hz, rfl⟩

/-- A cursor in the gap of a zipper. -/
def cursorAt {c : Cursor} {bound : Nat} {z : Zipper α} (hz : c.Spans bound z) :
    Supply (Cursor × List α) α where
  source := (Cursor.twoWay .left (.ofList .right)).toForward
  Has := (halves Cursor (List α)).Has Cursor.Rest
  gives := gives_halves
  start := (c, z.items)
  items := z.front
  holds := has_of_spans hz

/-- A window on a container that does not change. -/
def window (owner : String) {w : Window} {xs rest : List α} {i stop bound : Nat}
    (hw : w.Covers xs rest i stop bound) : Supply (Window × List α) α where
  source := Window.forward owner .left (.ofList .right)
  Has := (halves Window (List α)).Has Window.Rest
  gives := Pair.gives_window (halves Window (List α)) owner
  start := (w, xs)
  items := rest
  holds := ⟨w, xs, rfl, i, stop, bound, hw⟩

/-- The supply is a cursor or a window. -/
inductive Elementary : {τ : Type} → Supply τ α → Prop where
  | cursor {c : Cursor} {bound : Nat} {z : Zipper α} (hz : c.Spans bound z) :
      Elementary (cursorAt hz)
  | window (owner : String) {w : Window} {xs rest : List α} {i stop bound : Nat}
      (hw : w.Covers xs rest i stop bound) : Elementary (window owner hw)

/-- A removal through a cursor takes an element from the list, and where nothing was left nothing
is. -/
theorem remove_apply {s : Cursor × List α} {rest : List α}
    (h : (halves Cursor (List α)).Has Cursor.Rest s rest) :
    ∃ r s' rest', Cursor.remove .left (.ofList .right) s = .of r s'
      ∧ (halves Cursor (List α)).Has Cursor.Rest s' rest' ∧ (rest = [] → rest' = []) := by
  have hapart : (Field.left : Field (Cursor × List α) Cursor).Apart .right :=
    ⟨fun _ _ => rfl, fun _ _ => rfl⟩
  obtain ⟨c, xs, rfl, bound, z, rfl, hz, rfl⟩ := h
  have hspans : (Field.left.get (c, z.items)).Spans bound z := hz
  cases htouched : z.touched with
  | none =>
      refine ⟨.error (.notMoved .remove true), (c, z.items), z.front,
        Cursor.remove_of_untouched hspans htouched, ?_, id⟩
      exact has_of_spans hz
  | some i =>
      obtain ⟨c', hremove, hc'⟩ := Cursor.remove_of_touched hapart rfl hspans htouched
      refine ⟨.ok (), (c', z.items.eraseIdx i), z.removed.front, hremove, ?_,
        Zipper.front_removed_of_nil⟩
      exact ⟨c', _, rfl, bound, z.removed, Zipper.items_removed htouched, hc', rfl⟩

/-- A supply of any kind stays at its end until something is removed. -/
theorem lasting_of_spares {supply : Supply τ α} (h : supply.course.Spares supply.source.remove) :
    supply.course.Lasting supply.source where
  hasNext := by
    rintro t ⟨-, hspent⟩
    obtain ⟨t', hask, hspent'⟩ := supply.gives.hasNext_apply hspent
    exact ⟨t', hask, ⟨[], hspent'⟩, hspent'⟩
  next := by
    rintro t ⟨-, hspent⟩
    obtain ⟨t', hnext, hspent'⟩ := supply.gives.next_of_nil hspent
    exact ⟨t', hnext, ⟨[], hspent'⟩, hspent'⟩
  remove := h

theorem Elementary.lasting {supply : Supply τ α} (h : supply.Elementary) :
    supply.course.Lasting supply.source := by
  apply lasting_of_spares
  cases h with
  | cursor hz =>
      intro s hfit
      obtain ⟨rest, hs⟩ := hfit
      obtain ⟨r, s', rest', hremove, hs', -⟩ := remove_apply hs
      refine ⟨r, s', hremove, ⟨rest', hs'⟩, ?_⟩
      intro hspent
      obtain ⟨r₁, s₁, rest₁, hremove₁, hs₁, hnil⟩ := remove_apply hspent
      obtain ⟨-, rfl⟩ := Outcome.of_inj (hremove.symm.trans hremove₁)
      rw [hnil rfl] at hs₁
      exact hs₁
  | window owner hw => exact Course.spares_fail _ _

end Supply

/-- A look-ahead that has met an end leaves its source alone. -/
theorem Feed.lasting (steps : Nat → Except Failure α) :
    (Feed.course steps).Lasting (Feed.source steps) where
  hasNext := by
    rintro t ⟨hfit, hspent⟩
    exact ⟨t, Peek.hasNext_of_ended hspent.1 hspent.2.1, hfit, hspent⟩
  next := by
    rintro t ⟨hfit, hspent⟩
    have hask : (Feed.source steps).hasNext t = .value false t :=
      Peek.hasNext_of_ended hspent.1 hspent.2.1
    exact ⟨t, Peek.next_of_exhausted hask, hfit, hspent⟩
  remove := Course.spares_fail _ _

/-! ## §3. One source of a node. -/

namespace Knot

variable {τ : ι → Type} [DecidableEq ι] (knot : Knot ρ τ) {n : Node ρ τ} {i : ι}

/-- What a source does at its end is done within the node. -/
theorem within_of_settled {x : Act (τ i) β} {r : Except Failure β}
    (hx : (knot.courses i).Settled x r) (hfits : knot.Fits n)
    (hspent : (knot.courses i).Spent (n.below i)) :
    ∃ t, x.within (Node.child i) n = .of r ((Node.child i).set t n)
      ∧ knot.Fits ((Node.child i).set t n) ∧ (knot.courses i).Spent t := by
  obtain ⟨t, ht, hfit, hspent'⟩ := hx (n.below i) ⟨hfits i, hspent⟩
  exact ⟨t, Act.within_of ht, fits_put hfits hfit, hspent'⟩

theorem within_of_spares {x : Act (τ i) β} (hx : (knot.courses i).Spares x)
    (hfits : knot.Fits n) :
    ∃ r t, x.within (Node.child i) n = .of r ((Node.child i).set t n)
      ∧ knot.Fits ((Node.child i).set t n)
      ∧ ((knot.courses i).Spent (n.below i) → (knot.courses i).Spent t) := by
  obtain ⟨r, t, ht, hfit, hspent⟩ := hx (n.below i) (hfits i)
  exact ⟨r, t, Act.within_of ht, fits_put hfits hfit, hspent⟩

/-- A source that changed is spent where it was, and so are the others. -/
theorem spent_put {t : τ i}
    (ht : (knot.courses i).Spent (n.below i) → (knot.courses i).Spent t) (j : ι)
    (hj : (knot.courses j).Spent (n.below j)) :
    (knot.courses j).Spent (((Node.child i).set t n).below j) := by
  by_cases hji : j = i
  · subst hji
    rw [Node.below_child_set_self]
    exact ht hj
  · rw [Node.below_child_set_of_ne n t hji]
    exact hj

end Knot

/-! ## §4. Nodes over one source. -/

section

variable {c : Course τ} {source : Forward τ α}

namespace Filter

variable {mode : Mode} {cb : Callback α Bool} {n : Node (Filter α) fun _ : Unit => τ}

/-- A search from the end finds nothing, and calls the predicate on nothing. -/
theorem search_of_atEnd (hlast : c.Lasting source) {fuel : Nat} (hfuel : 0 < fuel)
    (h : (knot c mode cb).course.AtEnd n) :
    ∃ n', search (source.within (Node.child ())).hasNext (source.within (Node.child ())).next
        (cb.ask mode) fuel n = .value none n' ∧ (knot c mode cb).course.AtEnd n' := by
  obtain ⟨⟨hfits, -⟩, hahead, hspent⟩ := h
  obtain ⟨fuel, rfl⟩ := Nat.exists_eq_succ_of_ne_zero (Nat.ne_of_gt hfuel)
  obtain ⟨t, hask, hfits', ht⟩ :=
    Knot.within_of_settled (knot c mode cb) (i := ()) hlast.hasNext hfits hspent
  refine ⟨(Node.child ()).set t n, ?_, ⟨hfits', trivial⟩, hahead, ht⟩
  show (source.hasNext.within (Node.child ()) >>= _) n = _
  rw [Act.bind_apply, hask]
  rfl

theorem lasting (hlast : c.Lasting source) (mode : Mode) (cb : Callback α Bool) {fuel : Nat}
    (hfuel : 0 < fuel) : (knot c mode cb).course.Lasting (upon source mode cb fuel) where
  hasNext := by
    intro n h
    obtain ⟨n', hsearch, h'⟩ := search_of_atEnd hlast hfuel h
    have hahead : (Node.own.get n).ahead = none := h.2.1
    refine ⟨n', ?_, h'⟩
    show hasNext fuel Node.own (source.within (Node.child ())) (cb.ask mode) n = _
    simp only [hasNext, Act.bind_apply, Field.read_apply, hahead, Option.isSome_none,
      Bool.false_eq_true, if_false, hsearch]
    rfl
  next := by
    intro n h
    obtain ⟨n', hsearch, h'⟩ := search_of_atEnd hlast hfuel h
    have hahead : (Node.own.get n).ahead = none := h.2.1
    refine ⟨n', ?_, h'⟩
    show next fuel Node.own (source.within (Node.child ())) (cb.ask mode) n = _
    simp only [next, Act.bind_apply, Field.read_apply, hahead, hsearch]
    rfl
  remove := by
    intro n hfit
    show ∃ r n', remove Node.own (source.within (Node.child ())) n = .of r n' ∧ _
    cases hahead : (Node.own.get n).ahead with
    | some x =>
        refine ⟨.error (.heldAhead .remove false), n, ?_, hfit, id⟩
        simp only [remove, Act.bind_apply, Field.read_apply, hahead, Option.isSome_some, if_true]
        rfl
    | none =>
        obtain ⟨r, t, hremove, hfits, ht⟩ := Knot.within_of_spares (knot c mode cb)
          (i := ()) hlast.remove hfit.1
        refine ⟨r, _, ?_, ⟨hfits, trivial⟩, fun hspent => ⟨hspent.1, ht hspent.2⟩⟩
        simp only [remove, Act.bind_apply, Field.read_apply, hahead, Option.isSome_none,
          Bool.false_eq_true, if_false]
        exact hremove

end Filter

theorem Transform.lasting (hlast : c.Lasting source) (mode : Mode) (cb : Callback α β) :
    (Transform.knot c mode cb).course.Lasting (Transform.upon source mode cb) where
  hasNext := by
    rintro n ⟨hfit, hspent⟩
    obtain ⟨t, hask, hfits, ht⟩ := Knot.within_of_settled (Transform.knot c mode cb)
      (i := ()) hlast.hasNext hfit.1 hspent
    exact ⟨_, hask, ⟨hfits, trivial⟩, ht⟩
  next := by
    rintro n ⟨hfit, hspent⟩
    obtain ⟨t, hnext, hfits, ht⟩ := Knot.within_of_settled (Transform.knot c mode cb)
      (i := ()) hlast.next hfit.1 hspent
    refine ⟨_, ?_, ⟨hfits, trivial⟩, ht⟩
    show (source.next.within (Node.child ()) >>= cb.ask mode) n = _
    rw [Act.bind_apply, hnext]
    rfl
  remove := by
    intro n hfit
    obtain ⟨r, t, hremove, hfits, ht⟩ := Knot.within_of_spares (Transform.knot c mode cb)
      (i := ()) hlast.remove hfit.1
    exact ⟨r, _, hremove, ⟨hfits, trivial⟩, ht⟩

namespace Buffer

variable {n : Node (Buffer α) fun _ : Unit => τ}

/-- A removal from the kept elements takes the gap along, so that none of them comes to lie
after it. -/
theorem spares_remove (c : Course τ) (source : Forward τ α) (strict : Bool) :
    (knot α c).course.Spares (upon source strict).remove := by
  intro n hfit
  show ∃ r n', remove (pure strict) Node.own n = .of r n' ∧ _
  cases strict with
  | true => exact ⟨.error (.strict .remove), n, rfl, hfit, id⟩
  | false =>
      cases hlast : (Node.own.get n).last with
      | none =>
          refine ⟨.error (.notMoved .remove true), n, ?_, hfit, id⟩
          simp only [remove, checkMutable, lastCrossed, Act.bind_apply, Act.pure_apply,
            Field.read_apply, hlast, Bool.false_eq_true, if_false]
          rfl
      | some i =>
          let kept : Buffer α :=
            { kept := n.self.kept.eraseIdx i,
              position := if i < n.self.position then n.self.position - 1 else n.self.position }
          refine ⟨.ok (), Node.own.set kept n, ?_, ⟨hfit.1, trivial⟩, ?_⟩
          · simp only [remove, checkMutable, lastCrossed, Act.bind_apply, Act.pure_apply,
              Field.read_apply, hlast, Field.modify_apply, Bool.false_eq_true, if_false]
            rfl
          · rintro ⟨hle, hbelow⟩
            refine ⟨?_, hbelow⟩
            show (n.self.kept.eraseIdx i).length
              ≤ if i < n.self.position then n.self.position - 1 else n.self.position
            rw [List.length_eraseIdx]
            split <;> split <;> omega

theorem lasting (hlast : c.Lasting source) (strict : Bool) :
    (knot α c).course.Lasting (upon source strict) where
  hasNext := by
    rintro n ⟨hfit, hkept, hspent⟩
    obtain ⟨t, hask, hfits, ht⟩ :=
      Knot.within_of_settled (knot α c) (i := ()) hlast.hasNext hfit.1 hspent
    refine ⟨_, ?_, ⟨hfits, trivial⟩, hkept, ht⟩
    show hasNext Node.own (source.within (Node.child ())) n = _
    have hnot : ¬ (Node.own.get n).position < (Node.own.get n).kept.length := Nat.not_lt.mpr hkept
    simp only [hasNext, Act.bind_apply, Field.read_apply, if_neg hnot]
    exact hask
  next := by
    rintro n ⟨hfit, hkept, hspent⟩
    obtain ⟨t, hnext, hfits, ht⟩ :=
      Knot.within_of_settled (knot α c) (i := ()) hlast.next hfit.1 hspent
    refine ⟨_, ?_, ⟨hfits, trivial⟩, hkept, ht⟩
    show next Node.own (source.within (Node.child ())) n = _
    have hnone : (Node.own.get n).kept[(Node.own.get n).position]? = none :=
      List.getElem?_eq_none hkept
    have hfailed : (source.within (Node.child ())).next n
        = .failure .ended ((Node.child ()).set t n) := hnext
    simp only [next, Act.bind_apply, Field.read_apply, hnone, hfailed]
    rfl
  remove := spares_remove c source strict

end Buffer

end

/-! ## §5. Nodes over several sources. -/

namespace Chain

variable {N : Nat} {τ : Fin N → Type} {courses : (i : Fin N) → Course (τ i)}
  {sources : (i : Fin N) → Forward (τ i) α} {n : Node (Chain (Fin N)) τ} {m : Fin N}

/-- Any member may change if it is spent where it was. -/
theorem Placed.put_spared (h : Placed courses n) {t : τ m}
    (ht : (courses m).Spent (n.below m) → (courses m).Spent t) :
    Placed courses ((Node.child m).set t n) where
  members_eq := h.members_eq
  of_none := h.of_none
  position_eq := h.position_eq
  before hm' hj := Knot.spent_put (knot courses) ht _ (h.before hm' hj)

/-- A chain at its end goes through the members that are left, and finds all of them spent. -/
theorem advance_of_atEnd (hlast : ∀ i, (courses i).Lasting (sources i)) (steps : Nat)
    (h : (knot courses).course.AtEnd n) :
    ∃ n', advance Node.own (fun i => (sources i).within (Node.child i)) steps n = .value () n'
      ∧ (knot courses).course.AtEnd n' := by
  induction steps generalizing n with
  | zero => exact ⟨n, rfl, h⟩
  | succ steps ih =>
      obtain ⟨⟨hfits, hplaced⟩, hspent⟩ := h
      cases hcurrent : n.self.current with
      | none =>
          have hnone : (Node.own.get n).current = none := hcurrent
          refine ⟨n, ?_, ⟨hfits, hplaced⟩, hspent⟩
          simp only [advance, Act.bind_apply, Field.read_apply, hnone]
          rfl
      | some m =>
          have hm : (Node.own.get n).current = some m := hcurrent
          obtain ⟨t, hask, hfits₁, ht⟩ :=
            Knot.within_of_settled (knot courses) (hlast m).hasNext hfits (hspent m)
          have hplaced₁ := hplaced.put hcurrent t
          have hspent₁ := spent_put hspent ht
          have hmember : ((sources m).within (Node.child m)).hasNext n
              = .value false ((Node.child m).set t n) := hask
          by_cases hmore : m.val + 1 < N
          · have hfollowing := hplaced₁.following hcurrent hmore
            have hnext : (⟨m.val + 1, hmore⟩ : Fin N).val = m.val + 1 := rfl
            have hturned := hplaced₁.turn hcurrent (hspent₁ m) hnext
            have h₁ : (knot courses).course.AtEnd (Node.own.set
                { n.self with position := n.self.position + 1, current := some ⟨m.val + 1, hmore⟩ }
                ((Node.child m).set t n)) := ⟨⟨hfits₁, hturned⟩, hspent₁⟩
            obtain ⟨n', hrest, h'⟩ := ih h₁
            refine ⟨n', ?_, h'⟩
            simp only [advance, Act.bind_apply, Field.read_apply, hm, hmember, Bool.false_eq_true,
              if_false, hfollowing, Field.modify_apply]
            exact hrest
          · have hfollowing := hplaced₁.following_of_last hcurrent hmore
            refine ⟨_, ?_, ⟨hfits₁, hplaced₁⟩, hspent₁⟩
            simp only [advance, Act.bind_apply, Field.read_apply, hm, hmember, Bool.false_eq_true,
              if_false, hfollowing]
            rfl

/-- A chain that was used settles at its end. -/
theorem settle_of_locked (hlast : ∀ i, (courses i).Lasting (sources i))
    (hlocked : n.self.locked = true) (h : (knot courses).course.AtEnd n) :
    ∃ n', settle Node.own (fun i => (sources i).within (Node.child i)) (fun _ => pure ()) n
        = .value () n' ∧ (knot courses).course.AtEnd n' := by
  have hclosed : (Node.own.get n).locked = true := hlocked
  cases hcurrent : n.self.current with
  | some m =>
      have hm : (Node.own.get n).current = some m := hcurrent
      obtain ⟨n', hadvance, h'⟩ := advance_of_atEnd hlast n.self.members.length h
      refine ⟨n', ?_, h'⟩
      simp only [settle, Act.bind_apply, Field.read_apply, hclosed, Bool.not_true,
        Bool.false_eq_true, if_false, hm]
      exact hadvance
  | none =>
      have hm : (Node.own.get n).current = none := hcurrent
      cases hmembers : n.self.members with
      | nil =>
          have hnil : (Node.own.get n).members = [] := hmembers
          refine ⟨n, ?_, h⟩
          simp only [settle, Act.bind_apply, Field.read_apply, hclosed, Bool.not_true,
            Bool.false_eq_true, if_false, Act.pure_apply, hm, hnil]
      | cons first rest =>
          have hcons : (Node.own.get n).members = first :: rest := hmembers
          obtain ⟨⟨hfits, hplaced⟩, hspent⟩ := h
          have h₁ : (knot courses).course.AtEnd
              (Node.own.set { n.self with current := some first } n) :=
            ⟨⟨hfits, hplaced.start hcurrent hmembers⟩, hspent⟩
          obtain ⟨n', hadvance, h'⟩ := advance_of_atEnd hlast n.self.members.length h₁
          refine ⟨n', ?_, h'⟩
          simp only [settle, Act.bind_apply, Field.read_apply, hclosed, Bool.not_true,
            Bool.false_eq_true, if_false, hm, hcons, Field.modify_apply]
          rw [← hcons, ← hclosed]
          exact hadvance

theorem settle_of_atEnd (hlast : ∀ i, (courses i).Lasting (sources i))
    (h : (knot courses).course.AtEnd n) :
    ∃ n', settle Node.own (fun i => (sources i).within (Node.child i)) (fun _ => pure ()) n
        = .value () n' ∧ (knot courses).course.AtEnd n' := by
  cases hlocked : n.self.locked with
  | true => exact settle_of_locked hlast hlocked h
  | false =>
      obtain ⟨⟨hfits, hplaced⟩, hspent⟩ := h
      rw [settle_of_open hlocked]
      exact settle_of_locked hlast rfl ⟨⟨hfits, hplaced.locked⟩, hspent⟩

/-- A member that is gone on with at the end of its chain is at its own end. -/
theorem within_of_atEnd {x : Act (τ m) β} {r : Except Failure β}
    (hx : (courses m).Settled x r) (h : (knot courses).course.AtEnd n)
    (hcurrent : n.self.current = some m) :
    ∃ n', x.within (Node.child m) n = .of r n' ∧ (knot courses).course.AtEnd n' := by
  obtain ⟨⟨hfits, hplaced⟩, hspent⟩ := h
  obtain ⟨t, ht, hfits', hspent'⟩ :=
    Knot.within_of_settled (knot courses) hx hfits (hspent m)
  exact ⟨_, ht, ⟨hfits', hplaced.put hcurrent t⟩, spent_put hspent hspent'⟩

/-- A removal goes to the member that gave an element last, which may be one that was left. -/
theorem spares_remove (hlast : ∀ i, (courses i).Lasting (sources i)) :
    (knot courses).course.Spares (upon sources).remove := by
  rintro n ⟨hfits, hplaced⟩
  show ∃ r n', remove Node.own (fun i => (sources i).within (Node.child i)) n = .of r n' ∧ _
  cases hused : n.self.lastUsed with
  | none =>
      have hm : (Node.own.get n).lastUsed = none := hused
      refine ⟨.error (.notMoved .remove false), n, ?_, ⟨hfits, hplaced⟩, id⟩
      simp only [remove, Act.bind_apply, Field.read_apply, hm]
      rfl
  | some m =>
      have hm : (Node.own.get n).lastUsed = some m := hused
      obtain ⟨r, t, hremove, hfits', ht⟩ :=
        Knot.within_of_spares (knot courses) (hlast m).remove hfits
      have hplaced' := hplaced.put_spared ht
      have hspent' : (knot courses).Spent n →
          (knot courses).Spent ((Node.child m).set t n) := fun hspent j =>
        Knot.spent_put (knot courses) ht j (hspent j)
      have hmember : ((sources m).within (Node.child m)).remove n
          = .of r ((Node.child m).set t n) := hremove
      cases r with
      | error e =>
          refine ⟨.error e, _, ?_, ⟨hfits', hplaced'⟩, hspent'⟩
          simp only [remove, Act.bind_apply, Field.read_apply, hm, hmember]
          rfl
      | ok _ =>
          refine ⟨.ok (), Node.own.set { n.self with lastUsed := none } ((Node.child m).set t n),
            ?_, ⟨hfits', hplaced'.members_eq, hplaced'.of_none, hplaced'.position_eq,
              hplaced'.before⟩, hspent'⟩
          simp only [remove, Act.bind_apply, Field.read_apply, hm, hmember]
          rfl

theorem lasting (hlast : ∀ i, (courses i).Lasting (sources i)) :
    (knot courses).course.Lasting (upon sources) where
  hasNext := by
    intro n h
    obtain ⟨n₁, hsettle, h₁⟩ := settle_of_atEnd hlast h
    show ∃ n', hasNext Node.own (fun i => (sources i).within (Node.child i)) _ n = _ ∧ _
    cases hcurrent : n₁.self.current with
    | none =>
        have hm : (Node.own.get n₁).current = none := hcurrent
        refine ⟨n₁, ?_, h₁⟩
        simp only [hasNext, Act.bind_apply, hsettle, Field.read_apply, hm]
        rfl
    | some m =>
        have hm : (Node.own.get n₁).current = some m := hcurrent
        obtain ⟨n', hask, h'⟩ := within_of_atEnd (hlast m).hasNext h₁ hcurrent
        refine ⟨n', ?_, h'⟩
        simp only [hasNext, Act.bind_apply, hsettle, Field.read_apply, hm]
        exact hask
  next := by
    intro n h
    obtain ⟨n₁, hsettle, h₁⟩ := settle_of_atEnd hlast h
    show ∃ n', next Node.own (fun i => (sources i).within (Node.child i)) _ n = _ ∧ _
    cases hcurrent : n₁.self.current with
    | none =>
        have hm : (Node.own.get n₁).current = none := hcurrent
        refine ⟨n₁, ?_, h₁⟩
        simp only [next, Act.bind_apply, hsettle, Field.read_apply, hm]
        rfl
    | some m =>
        have hm : (Node.own.get n₁).current = some m := hcurrent
        obtain ⟨n', hstep, h'⟩ := within_of_atEnd (hlast m).next h₁ hcurrent
        have hmember : ((sources m).within (Node.child m)).next n₁ = .failure .ended n' := hstep
        refine ⟨n', ?_, h'⟩
        simp only [next, Act.bind_apply, hsettle, Field.read_apply, hm, hmember]
        rfl
  remove := spares_remove hlast

end Chain

namespace Merge

variable {N : Nat} {τ : Fin N → Type} {courses : (i : Fin N) → Course (τ i)}
  {sources : (i : Fin N) → Forward (τ i) α} {precedes : Nat → α → α → Except Failure Bool}
  {n : Node (Merge α) τ}

/-- All slots of a merge at its end are empty. -/
theorem slot_of_atEnd (h : (knot courses precedes).course.AtEnd n) (i : Nat) :
    n.self.slot i = none := by
  obtain ⟨⟨-, hlength⟩, hspent⟩ := h
  by_cases hi : i < N
  · exact (hspent ⟨i, hi⟩).1
  · have hout : n.self.slots.length ≤ i := by
      rw [show n.self.slots.length = N from hlength]
      exact Nat.not_lt.mp hi
    rw [slot, List.getElem?_eq_none hout]
    rfl

/-- What a source of a merge does at its end leaves the merge at its end. -/
theorem within_of_atEnd {i : Fin N} {x : Act (τ i) β} {r : Except Failure β}
    (hx : (courses i).Settled x r) (h : (knot courses precedes).course.AtEnd n) :
    ∃ n', x.within (Node.child i) n = .of r n' ∧ (knot courses precedes).course.AtEnd n' := by
  obtain ⟨⟨hfits, hlength⟩, hspent⟩ := h
  obtain ⟨t, ht, hfits', ht'⟩ :=
    Knot.within_of_settled (knot courses precedes) hx hfits (hspent i).2
  refine ⟨_, ht, ⟨hfits', hlength⟩, fun j => ⟨(hspent j).1, ?_⟩⟩
  exact Knot.spent_put (knot courses precedes) (fun _ => ht') j (hspent j).2

/-- A pass over any of the sources finds nothing, and calls the comparator on nothing. -/
theorem scan_of_atEnd [Inhabited α] (hlast : ∀ i, (courses i).Lasting (sources i))
    (names : List (Fin N)) (i : Nat) (h : (knot courses precedes).course.AtEnd n) :
    ∃ n', scan Node.own (compare precedes)
        (names.map fun i => (sources i).within (Node.child i)) i none n = .value none n'
      ∧ (knot courses precedes).course.AtEnd n' := by
  induction names generalizing n i with
  | nil => exact ⟨n, rfl, h⟩
  | cons m names ih =>
      obtain ⟨n₁, hask, h₁⟩ := within_of_atEnd (hlast m).hasNext h
      obtain ⟨n', hrest, h'⟩ := ih (i + 1) h₁
      have hslot : (Node.own.get n).slot i = none := slot_of_atEnd h i
      have hslot₁ : (Node.own.get n₁).slot i = none := slot_of_atEnd h₁ i
      have hsource : ((sources m).within (Node.child m)).hasNext n = .value false n₁ := hask
      refine ⟨n', ?_, h'⟩
      simp only [List.map_cons, scan, fill, Act.bind_apply, Field.read_apply, hslot,
        Option.isSome_none, Bool.false_eq_true, if_false, hsource, Act.pure_apply, hslot₁]
      exact hrest

theorem anyHasNext_of_atEnd (hlast : ∀ i, (courses i).Lasting (sources i))
    (names : List (Fin N)) (h : (knot courses precedes).course.AtEnd n) :
    ∃ n', anyHasNext (names.map fun i => (sources i).within (Node.child i)) n = .value false n'
      ∧ (knot courses precedes).course.AtEnd n' := by
  induction names generalizing n with
  | nil => exact ⟨n, rfl, h⟩
  | cons m names ih =>
      obtain ⟨n₁, hask, h₁⟩ := within_of_atEnd (hlast m).hasNext h
      obtain ⟨n', hrest, h'⟩ := ih h₁
      have hsource : ((sources m).within (Node.child m)).hasNext.sealed n = .value false n₁ := by
        have hopen : ((sources m).within (Node.child m)).hasNext n = .value false n₁ := hask
        simp only [Act.sealed, hopen]
      refine ⟨n', ?_, h'⟩
      simp only [List.map_cons, anyHasNext, Act.bind_apply, hsource, Bool.false_eq_true, if_false]
      exact hrest

/-- A removal is refused or reaches one of the sources. -/
theorem remove_cases {σ : Type} (self : Field σ (Merge α)) (sources : List (Forward σ α)) (s : σ) :
    remove self sources s = .failure (.notMoved .remove false) s
      ∨ ∃ source ∈ sources, remove self sources s
        = (source.remove >>= fun _ => self.modify ({ · with removable := false })) s := by
  cases hremovable : (self.get s).removable with
  | false =>
      left
      simp only [remove, Act.bind_apply, Field.read_apply, hremovable, Bool.not_false, if_true]
      rfl
  | true =>
      simp only [remove, Act.bind_apply, Field.read_apply, hremovable, Bool.not_true,
        Bool.false_eq_true, if_false]
      cases hlast : (self.get s).last with
      | none => exact .inl rfl
      | some k =>
          simp only [Option.bind_some]
          cases hk : sources[k]? with
          | none => exact .inl rfl
          | some source => exact .inr ⟨source, List.mem_of_getElem? hk, rfl⟩

/-- A removal empties no slot, and leaves a source that is spent so. -/
theorem spares_remove [Inhabited α] (hlast : ∀ i, (courses i).Lasting (sources i)) :
    (knot courses precedes).course.Spares (upon sources precedes).remove := by
  rintro n ⟨hfits, hlength⟩
  show ∃ r n', remove Node.own _ n = .of r n' ∧ _
  obtain hrefused | ⟨source, hmem, hremove⟩ :=
    remove_cases Node.own ((List.finRange N).map fun i => (sources i).within (Node.child i)) n
  · exact ⟨.error (.notMoved .remove false), n, hrefused, ⟨hfits, hlength⟩, id⟩
  · obtain ⟨i, -, rfl⟩ := List.mem_map.mp hmem
    obtain ⟨r, t, hdone, hfits', ht⟩ :=
      Knot.within_of_spares (knot courses precedes) (hlast i).remove hfits
    have hspent' : (knot courses precedes).Spent n →
        (knot courses precedes).Spent ((Node.child i).set t n) := fun hspent j =>
      ⟨(hspent j).1, Knot.spent_put (knot courses precedes) ht j (hspent j).2⟩
    have hsource : ((sources i).within (Node.child i)).remove n
        = .of r ((Node.child i).set t n) := hdone
    rw [hremove, Act.bind_apply, hsource]
    cases r with
    | error e => exact ⟨.error e, _, rfl, ⟨hfits', hlength⟩, hspent'⟩
    | ok _ =>
        exact ⟨.ok (), Node.own.set { n.self with removable := false } ((Node.child i).set t n),
          rfl, ⟨hfits', hlength⟩, hspent'⟩

theorem lasting [Inhabited α] (hlast : ∀ i, (courses i).Lasting (sources i))
    (precedes : Nat → α → α → Except Failure Bool) :
    (knot courses precedes).course.Lasting (upon sources precedes) where
  hasNext := by
    intro n h
    obtain ⟨n', hask, h'⟩ := anyHasNext_of_atEnd hlast (List.finRange N) h
    have hany : ¬ (Node.own.get n).slots.any Option.isSome = true := by
      intro hany
      obtain ⟨j, hj⟩ := exists_slot_of_any h.1.2 hany
      rw [slot_of_atEnd h j] at hj
      exact absurd hj Bool.false_ne_true
    refine ⟨n', ?_, h'⟩
    show hasNext Node.own _ n = _
    simp only [hasNext, Act.bind_apply, Field.read_apply, if_neg hany]
    exact hask
  next := by
    intro n h
    obtain ⟨n', hscan, h'⟩ := scan_of_atEnd hlast (List.finRange N) 0 h
    refine ⟨n', ?_, h'⟩
    show next Node.own _ _ n = _
    simp only [next, Act.bind_apply, hscan]
    rfl
  remove := spares_remove hlast

end Merge

/-! ## §6. Flattenings. -/

/-- A flattening at its end has no branch open, and asks none of those that it had. -/
theorem Canopy.lasting {τ : Nat → Type} (courses : (k : Nat) → Course (τ k))
    (sources : (k : Nat) → Forward (τ k) α) (walk : α → Option Nat) (mode : Mode)
    (cb : Callback α α) {fuel : Nat} (hfuel : 0 < fuel) :
    (knot courses mode cb).course.Lasting (upon sources walk mode cb fuel) := by
  have hfind : ∀ n, (knot courses mode cb).course.AtEnd n →
      Flatten.find fuel flatField (nesting sources walk mode cb) n = .value none n := by
    rintro n ⟨-, hstarted, -, hstack, -⟩
    have hs : (flatField.get n).started = true := hstarted
    have hk : (flatField.get n).stack = [] := hstack
    obtain ⟨fuel, rfl⟩ := Nat.exists_eq_succ_of_ne_zero (Nat.ne_of_gt hfuel)
    simp only [Flatten.find, Flatten.search, Act.bind_apply, Field.read_apply, hs, Bool.not_true,
      Bool.false_eq_true, if_false, Act.pure_apply, hk]
  refine ⟨?_, ?_, Course.spares_fail _ _⟩
  · intro n h
    have ha : (flatField.get n).ahead = none := h.2.2.1
    refine ⟨n, ?_, h⟩
    show Flatten.hasNext fuel flatField (nesting sources walk mode cb) n = _
    simp only [Flatten.hasNext, Act.bind_apply, Field.read_apply, ha, Option.isSome_none,
      Bool.false_eq_true, if_false, hfind n h]
    rfl
  · intro n h
    have ha : (flatField.get n).ahead = none := h.2.2.1
    refine ⟨n, ?_, h⟩
    show Flatten.next fuel flatField (nesting sources walk mode cb) n = _
    simp only [Flatten.next, Act.bind_apply, Field.read_apply, ha, hfind n h]
    rfl

end Cursors
