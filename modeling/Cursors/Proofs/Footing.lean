/-
  Cursors.Proofs.Footing
  ──────────────────────
  **WHERE A FAILED MOVE LEAVES A CURSOR.**

  The list below a cursor or a window is edited from outside at any time and
  in any way, so that a position can come to lie beyond its end.  What a
  move does then depends on the order of its effects:

      next       reads, then moves: if it fails, nothing has changed
      previous   moves, then reads: if the element is gone, it has moved

  The footing of a cursor is what can be told of where it stands: the index,
  the position of the element behind it, and the position on which an edit
  would act.  `Treads` says of each move exactly when it loses its footing,
  and to what.

  Main result (`failed_moves`): in every run with edits from outside, a move
  that fails keeps its footing unless it goes back to an element that is
  gone; then it stands one further back, with the missing position as the
  one to be edited.
-/
import Cursors.Proofs.After
import Cursors.Proofs.Gesture
import Cursors.Proofs.Leaf

namespace Cursors

variable {σ α κ : Type}

/-! ## §1. Footings. -/

/-- Where something stands that moves over a container. -/
structure Footing where
  /-- The index that it tells. -/
  index : Int
  /-- The position in the container of the element behind it. -/
  behind : Int
  /-- The position in the container on which an edit would act. -/
  target : Option Int
  deriving Repr, DecidableEq

/-- The footing one further back, from where the element in between can be edited. -/
def Footing.back (f : Footing) : Footing := ⟨f.index - 1, f.behind - 1, some f.behind⟩

/-- The position on which an edit would act, from the position crossed last. -/
def Place.target (last : Option Place) : Option Int :=
  (last.filter Place.fromFront).map Place.toInt

def Cursor.footing (c : Cursor) : Footing where
  index := c.position.toInt
  behind := c.position.toInt - 1
  target := Place.target c.last

def ListWindow.footing (w : ListWindow) : Footing where
  index := w.window.index.toInt - w.window.start.toInt
  behind := w.window.index.toInt - 1
  target := Place.target w.last

/-- What an edit on a target makes of a list, unless there is no target or none any more. -/
def editAt (edit : Edit) (change : List α → Nat → List α) (xs : List α) (target : Option Int) :
    Except Failure (List α) :=
  match target with
  | none => .error (.notMoved edit true)
  | some i =>
      match Place.index? xs.length i with
      | none => .error (.refused .index)
      | some j => .ok (change xs j)

/-- An exact position that was crossed can be edited. -/
theorem Place.StandsAt.target {p : Place} {n bound : Nat} (h : p.StandsAt n bound) :
    Place.target (some p) = some (n : Int) := by
  rw [Place.target, Option.filter_some, if_pos h.fromFront, Option.map_some, h.toInt_eq]

/-! ## §2. Occurrences. -/

/-- A gesture, or an edit of the list from outside. -/
inductive Occurrence (α : Type) where
  | gesture (g : Gesture α)
  | edited (edit : List α → List α)

/-- Let it happen, to a list with something that moves over it. -/
def Occurrence.ask (source : TwoWay (List α × κ) α) (reset : Act (List α × κ) Unit) :
    Occurrence α → Act (List α × κ) (Reply α)
  | .gesture g => g.ask source reset
  | .edited edit => do
      Field.left.modify edit
      return .answer .done

/-- A move that fails leaves index and target as they were. -/
def Unmoved (footing : κ → Footing) (i : Occurrence α) (s : List α × κ)
    (r : Except Failure (Reply α)) (s' : List α × κ) : Prop :=
  i = .gesture (.call .next) ∨ i = .gesture (.call .previous) → ∀ e, r = .error e →
    (footing s'.2).index = (footing s.2).index ∧ (footing s'.2).target = (footing s.2).target

/-- The element behind is gone: the container ends before it. -/
def Gone (footing : κ → Footing) (s : List α × κ) : Prop :=
  0 < (footing s.2).index ∧ (s.1.length : Int) ≤ (footing s.2).behind

/-- What a move comes to, whether it fails or not. -/
structure Treads (footing : κ → Footing) (i : Occurrence α) (s : List α × κ)
    (r : Except Failure (Reply α)) (s' : List α × κ) : Prop where
  unmoved_iff : Unmoved footing i s r s' ↔ ¬ (i = .gesture (.call .previous) ∧ Gone footing s)
  /-- Except for a move back to an element that is gone, a move that fails does nothing at all. -/
  kept : (i = .gesture (.call .next) ∨ i = .gesture (.call .previous) ∧ ¬ Gone footing s) →
    ∀ e, r = .error e → s' = s
  /-- A move back to an element that is gone is refused, and has moved. -/
  slipped : i = .gesture (.call .previous) → Gone footing s →
    r = .error (.refused .index) ∧ s'.1 = s.1 ∧ footing s'.2 = (footing s.2).back

section

variable {footing : κ → Footing} {i : Occurrence α} {s s' : List α × κ}
  {r : Except Failure (Reply α)}

/-- All but moves are of no account. -/
theorem treads_of_other (hnext : i ≠ .gesture (.call .next))
    (hprevious : i ≠ .gesture (.call .previous)) : Treads footing i s r s' where
  unmoved_iff :=
    ⟨fun _ h => hprevious h.1, fun _ hmove => by
      rcases hmove with hi | hi
      · exact absurd hi hnext
      · exact absurd hi hprevious⟩
  kept hmove := by
    rcases hmove with hi | ⟨hi, -⟩
    · exact absurd hi hnext
    · exact absurd hi hprevious
  slipped hi := absurd hi hprevious

/-- Where nothing is gone, a move that fails has to have done nothing. -/
theorem treads_of_kept (hslip : ¬ (i = .gesture (.call .previous) ∧ Gone footing s))
    (h : ∀ e, r = .error e → s' = s) : Treads footing i s r s' where
  unmoved_iff := by
    refine ⟨fun _ => hslip, fun _ _ e he => ?_⟩
    rw [h e he]
    exact ⟨rfl, rfl⟩
  kept _ := h
  slipped hi hgone := absurd ⟨hi, hgone⟩ hslip

theorem treads_previous_of_gone (hgone : Gone footing s) (hr : r = .error (.refused .index))
    (hlist : s'.1 = s.1) (hback : footing s'.2 = (footing s.2).back) :
    Treads footing (.gesture (.call .previous)) s r s' where
  unmoved_iff := by
    refine ⟨fun hunmoved _ => ?_, fun hnot => absurd ⟨rfl, hgone⟩ hnot⟩
    have hindex := (hunmoved (.inr rfl) _ hr).1
    rw [hback] at hindex
    simp only [Footing.back] at hindex
    omega
  kept := by
    rintro (hi | ⟨-, hnot⟩)
    · exact nomatch hi
    · exact absurd hgone hnot
  slipped _ _ := ⟨hr, hlist, hback⟩

/-- A step back that moves first, and then reads. -/
theorem treads_previous {b : Nat} (hindex : 0 < (footing s.2).index)
    (hbehind : (footing s.2).behind = b)
    (hr : r = match s.1[b]? with
      | some x => .ok (.answer (.element x))
      | none => .error (.refused .index))
    (hlist : s'.1 = s.1) (hback : footing s'.2 = (footing s.2).back) :
    Treads footing (.gesture (.call .previous)) s r s' := by
  by_cases hlt : b < s.1.length
  · have hgone : ¬ Gone footing s := by
      rintro ⟨-, hle⟩
      omega
    rw [List.getElem?_eq_getElem hlt] at hr
    exact treads_of_kept (fun hslip => hgone hslip.2) (fun e he => nomatch hr.symm.trans he)
  · have hgone : Gone footing s := ⟨hindex, by omega⟩
    rw [List.getElem?_eq_none (by omega)] at hr
    exact treads_previous_of_gone hgone hr hlist hback

/-- An occurrence comes to something, treads as it should, and leaves what moves over the list in a
fit state. -/
def Lands (source : TwoWay (List α × κ) α) (reset : Act (List α × κ) Unit)
    (footing : κ → Footing) (Fits : κ → Prop) (i : Occurrence α) (s : List α × κ) : Prop :=
  ∃ r s', i.ask source reset s = .of r s' ∧ Treads footing i s r s' ∧ Fits s'.2

section

variable {source : TwoWay (List α × κ) α} {reset : Act (List α × κ) Unit} {Fits : κ → Prop}
  {g : Gesture α}

theorem lands_of_ask (hask : g.ask source reset s = .of r s')
    (htreads : Treads footing (.gesture g) s r s') (hfits : Fits s'.2) :
    Lands source reset footing Fits (.gesture g) s :=
  ⟨r, s', hask, htreads, hfits⟩

/-- All but moves have only to leave a fit state. -/
theorem lands_of_other (hask : g.ask source reset s = .of r s') (hfits : Fits s'.2)
    (hother : g ≠ .call .next ∧ g ≠ .call .previous) :
    Lands source reset footing Fits (.gesture g) s :=
  lands_of_ask hask
    (treads_of_other (fun h => hother.1 (Occurrence.gesture.inj h))
      (fun h => hother.2 (Occurrence.gesture.inj h))) hfits

/-- An edit leaves what moves over the list as it was where it fails. -/
theorem edit_cases {edit : Act (List α × κ) Unit} {edited : Except Failure (List α)} {c : κ}
    (h : edit s = match edited with
      | .ok xs => .value () (xs, c)
      | .error e => .failure e s) :
    ∃ r s', edit s = .of r s' ∧ (s'.2 = c ∨ s'.2 = s.2) := by
  cases edited with
  | ok xs => exact ⟨.ok (), (xs, c), h, .inl rfl⟩
  | error e => exact ⟨.error e, s, h, .inr rfl⟩

/-- An edit from outside does not touch what moves over the list. -/
theorem lands_edited (edit : List α → List α) (hfits : Fits s.2) :
    Lands source reset footing Fits (.edited edit) s :=
  ⟨.ok (.answer .done), (edit s.1, s.2), rfl,
    treads_of_other (fun h => nomatch h) (fun h => nomatch h), hfits⟩

end

end

/-! ## §3. Cursors. -/

theorem Sequence.get_of_standsAt {list : Field σ (List α)} {p : Place} {n bound : Nat}
    (hp : p.StandsAt n bound) (s : σ) :
    (ofList list).get p s = .of (match (list.get s)[n]? with
      | some x => .ok x
      | none => .error (.refused .index)) s := by
  by_cases hlt : n < (list.get s).length
  · have hx := List.getElem?_eq_getElem hlt
    rw [Cursor.get_ofList_apply hp hx, hx]
    rfl
  · have hnone : (list.get s)[n]? = none := List.getElem?_eq_none (by omega)
    have hindex : Place.index? (list.get s).length p.toInt = none := by
      rw [hp.toInt_eq, Place.index?_natCast, if_neg hlt]
    rw [hnone]
    simp only [ofList, Act.bind_apply, Field.read_apply, hindex, Option.bind_none, Act.fail_apply]
    rfl

namespace Cursor

/-- A cursor over the list beside it. -/
def source : TwoWay (List α × Cursor) α := twoWay Field.right (.ofList Field.left)

/-- The cursor stands at an exact position, and so it will after `k` gestures more. -/
def Fits (bound k : Nat) (c : Cursor) : Prop :=
  ∃ n, c.position.StandsAt n bound ∧ n + k ≤ bound

variable {s : List α × Cursor} {n k bound : Nat}

theorem nextIndex_apply (s : List α × Cursor) :
    source.nextIndex s = .value (footing s.2).index s := rfl

theorem lands_next (h : s.2.position.StandsAt n bound) (hroom : n + (k + 1) ≤ bound) :
    Lands source (reset Field.right) footing (Fits bound k) (.gesture (.call .next)) s := by
  have hslip : ¬ ((Occurrence.gesture (.call .next) : Occurrence α) = .gesture (.call .previous)
      ∧ Gone footing s) := fun hslip => nomatch hslip.1
  have hposition : (Field.right.get s).position.toInt = n := h.toInt_eq
  by_cases hlt : n < s.1.length
  · have hmore : ¬ (n : Int) ≥ (Field.left.get s).length := by
      show ¬ (n : Int) ≥ s.1.length
      omega
    have hget : (Sequence.ofList Field.left).get (Field.right.get s).position s
        = .value s.1[n] s := get_ofList_apply h (List.getElem?_eq_getElem hlt)
    have hnext : source.step .forward s
        = .of (.ok s.1[n]) (s.1, ⟨s.2.position.following, some s.2.position⟩) := by
      show next Field.right (.ofList Field.left) s = _
      simp only [next, Act.bind_apply, Field.read_apply, Sequence.length_apply, hposition,
        if_neg hmore, hget]
      rfl
    exact lands_of_ask (Gesture.ask_call_of (Call.ask_step_of hnext))
      (treads_of_kept hslip (fun e he => nomatch he))
      ⟨n + 1, h.following (by omega), by omega⟩
  · have hend : (n : Int) ≥ (Field.left.get s).length := by
      show (n : Int) ≥ s.1.length
      omega
    have hnext : source.step .forward s = .of (.error .ended) s := by
      show next Field.right (.ofList Field.left) s = _
      simp only [next, Act.bind_apply, Field.read_apply, Sequence.length_apply, hposition,
        if_pos hend]
      rfl
    exact lands_of_ask (Gesture.ask_call_of (Call.ask_step_of hnext))
      (treads_of_kept hslip (fun _ _ => rfl)) ⟨n, h, by omega⟩

theorem lands_previous (h : s.2.position.StandsAt n bound) (hroom : n + k ≤ bound) :
    Lands source (reset Field.right) footing (Fits bound k) (.gesture (.call .previous)) s := by
  have hposition : (Field.right.get s).position.toInt = n := h.toInt_eq
  match n, h with
  | 0, h =>
      have hprevious : source.step .backward s = .of (.error .ended) s := by
        show previous Field.right (.ofList Field.left) s = _
        simp only [previous, Act.bind_apply, Field.read_apply, hposition, Int.natCast_zero,
          Int.le_refl, if_true]
        rfl
      have hslip : ¬ Gone footing s := by
        rintro ⟨hindex, -⟩
        have hzero : (footing s.2).index = 0 := h.toInt_eq
        omega
      exact lands_of_ask (Gesture.ask_call_of (Call.ask_step_of hprevious))
        (treads_of_kept (fun hgone => hslip hgone.2) (fun _ _ => rfl)) ⟨0, h, hroom⟩
  | n + 1, h =>
      have hmore : ¬ ((n + 1 : Nat) : Int) ≤ 0 := by omega
      have hback := h.preceding
      have hprevious : source.step .backward s = .of (match s.1[n]? with
          | some x => .ok x
          | none => .error (.refused .index))
          (s.1, ⟨s.2.position.preceding, some s.2.position.preceding⟩) := by
        show previous Field.right (.ofList Field.left) s = _
        simp only [previous, Act.bind_apply, Field.read_apply, hposition, if_neg hmore]
        exact Sequence.get_of_standsAt hback _
      have hindex : (footing s.2).index = ((n + 1 : Nat) : Int) := h.toInt_eq
      have hbehind : (footing s.2).behind = n := by
        show (footing s.2).index - 1 = n
        omega
      refine lands_of_ask (Gesture.ask_call_of (Call.ask_step_of hprevious))
        (treads_previous (by omega) hbehind ?_ rfl ?_) ⟨n, hback, by omega⟩
      · cases s.1[n]? <;> rfl
      · simp only [Footing.back, hindex, hbehind]
        simp only [footing, hback.toInt_eq, hback.target, Footing.mk.injEq, and_true]
        omega

/-- A replacement acts on the target. -/
theorem set_apply (s : List α × Cursor) (x : α) :
    source.set x s = match editAt .set (fun xs j => xs.set j x) s.1 (footing s.2).target with
      | .ok xs => .value () (xs, s.2)
      | .error e => .failure e s := by
  show set Field.right (.ofList Field.left) x s = _
  cases hlast : (Field.right.get s).last.filter Place.fromFront with
  | none =>
      have htarget : (footing s.2).target = none := congrArg (Option.map Place.toInt) hlast
      simp only [set, crossed, Act.bind_apply, Field.read_apply, hlast, Act.fail_apply, htarget,
        editAt]
  | some i =>
      have htarget : (footing s.2).target = some i.toInt := congrArg (Option.map Place.toInt) hlast
      simp only [set, crossed, Sequence.ofList, Act.bind_apply, Field.read_apply, hlast,
        Act.pure_apply, htarget, editAt]
      have hsame : Place.index? (Field.left.get s).length i.toInt
          = Place.index? s.1.length i.toInt := rfl
      rw [hsame]
      cases Place.index? s.1.length i.toInt <;> rfl

/-- A removal acts on the target, and takes the cursor along if it lies behind it. -/
theorem remove_apply (s : List α × Cursor) :
    source.remove s = match editAt .remove List.eraseIdx s.1 (footing s.2).target with
      | .ok xs => .value () (xs, ⟨if (footing s.2).target.any (· < s.2.position.toInt)
          then s.2.position.preceding else s.2.position, none⟩)
      | .error e => .failure e s := by
  show remove Field.right (.ofList Field.left) s = _
  cases hlast : (Field.right.get s).last.filter Place.fromFront with
  | none =>
      have htarget : (footing s.2).target = none := congrArg (Option.map Place.toInt) hlast
      simp only [remove, crossed, Act.bind_apply, Field.read_apply, hlast, Act.fail_apply, htarget,
        editAt]
  | some i =>
      have htarget : (footing s.2).target = some i.toInt := congrArg (Option.map Place.toInt) hlast
      simp only [remove, crossed, Sequence.ofList, Act.bind_apply, Field.read_apply, hlast,
        Act.pure_apply, htarget, editAt, Option.any_some, decide_eq_true_eq]
      have hsame : Place.index? (Field.left.get s).length i.toInt
          = Place.index? s.1.length i.toInt := rfl
      rw [hsame]
      cases Place.index? s.1.length i.toInt <;> rfl

/-- A target counts from the front. -/
theorem target_nonneg {c : Cursor} {i : Int} (h : c.footing.target = some i) : 0 ≤ i := by
  obtain ⟨p, hp, rfl⟩ := Option.map_eq_some_iff.mp h
  exact of_decide_eq_true (Option.filter_eq_some_iff.mp hp).2

/-- An element that lies behind the cursor is not the one before the first. -/
theorem fits_removed {c : Cursor} (h : c.position.StandsAt n bound) (hroom : n + k ≤ bound) :
    Fits bound k ⟨if c.footing.target.any (· < c.position.toInt) then c.position.preceding
      else c.position, none⟩ := by
  split
  · next hbehind =>
      obtain ⟨i, hi, hlt⟩ := (Option.any_eq_true ..).mp hbehind
      have hnonneg := target_nonneg hi
      rw [decide_eq_true_eq, h.toInt_eq] at hlt
      obtain ⟨n, rfl⟩ := Nat.exists_eq_succ_of_ne_zero (by omega : n ≠ 0)
      exact ⟨n, h.preceding, by omega⟩
  · exact ⟨n, h, hroom⟩

/-- Whatever happens, the cursor treads as it should. -/
theorem lands (h : Fits bound (k + 1) s.2) (i : Occurrence α) :
    Lands source (reset Field.right) footing (Fits bound k) i s := by
  obtain ⟨n, hn, hroom⟩ := h
  have hstill : Fits bound k s.2 := ⟨n, hn, by omega⟩
  match i with
  | .edited edit => exact lands_edited edit hstill
  | .gesture (.call .next) => exact lands_next hn hroom
  | .gesture (.call .previous) => exact lands_previous hn (by omega)
  | .gesture (.call .hasNext) =>
      have hof : source.hasMore .forward s = .of (.ok _) s := rfl
      exact lands_of_other (Gesture.ask_call_of (Call.ask_hasMore_of hof)) hstill (by simp)
  | .gesture (.call .hasPrevious) =>
      have hof : source.hasMore .backward s = .of (.ok _) s := rfl
      exact lands_of_other (Gesture.ask_call_of (Call.ask_hasMore_of hof)) hstill (by simp)
  | .gesture .nextIndex =>
      have hask : Gesture.nextIndex.ask source (reset Field.right) s
          = .of (.ok (.index (footing s.2).index)) s := Gesture.ask_nextIndex_of (nextIndex_apply s)
      exact lands_of_other hask hstill (by simp)
  | .gesture .previousIndex =>
      have hask : Gesture.previousIndex.ask source (reset Field.right) s = .of (.ok _) s := rfl
      exact lands_of_other hask hstill (by simp)
  | .gesture .reset =>
      have hask : Gesture.reset.ask source (reset Field.right) s = .of (.ok _) (s.1, {}) := rfl
      exact lands_of_other hask ⟨0, Place.standsAt_plain (Nat.zero_le bound), by omega⟩ (by simp)
  | .gesture (.call (.add x)) =>
      have hof : source.add x s = .of (.ok ()) (_, ⟨s.2.position.following, none⟩) := rfl
      exact lands_of_other (Gesture.ask_call_of (Call.ask_add_of hof))
        ⟨n + 1, hn.following (by omega), by omega⟩ (by simp)
  | .gesture (.call (.set x)) =>
      obtain ⟨r, s', hof, hsame⟩ := edit_cases (set_apply s x)
      have hfits : Fits bound k s'.2 := by rwa [or_self_iff.mp hsame]
      exact lands_of_other (Gesture.ask_call_of (Call.ask_set_of hof)) hfits (by simp)
  | .gesture (.call .remove) =>
      obtain ⟨r, s', hof, hcursor⟩ := edit_cases (remove_apply s)
      have hfits : Fits bound k s'.2 := by
        rcases hcursor with hremoved | hsame
        · rw [hremoved]
          exact fits_removed hn (by omega)
        · rwa [hsame]
      exact lands_of_other (Gesture.ask_call_of (Call.ask_remove_of hof)) hfits (by simp)

end Cursor

/-! ## §4. Windows. -/

namespace ListWindow

/-- A window on the list beside it. -/
def source (owner : String) : TwoWay (List α × ListWindow) α :=
  twoWay owner Field.right (.ofList Field.left)

/-- The window goes from `n` up to `m`, and stands at an exact position that is not before it. -/
structure Fits (n m : Nat) (w : ListWindow) : Prop where
  start : w.window.start.StandsAt n m
  stop_eq : w.window.stop.toInt = m
  index : ∃ i, n ≤ i ∧ w.window.index.StandsAt i m

/-- The window after it moved. -/
def movedTo (w : ListWindow) (index : Place) (last : Option Place) : ListWindow :=
  { window := { w.window with index }, last }

variable {owner : String} {s : List α × ListWindow} {n m i : Nat}

theorem nextIndex_apply (owner : String) (s : List α × ListWindow) :
    (source owner).nextIndex s = .value (footing s.2).index s := rfl

theorem Fits.movedTo {w : ListWindow} (h : w.Fits n m) {index : Place} (hn : n ≤ i)
    (hindex : index.StandsAt i m) (last : Option Place) : (w.movedTo index last).Fits n m :=
  ⟨h.start, h.stop_eq, i, hn, hindex⟩

theorem next_fits (owner : String) (h : s.2.Fits n m) :
    ∃ r s', (source owner).step .forward s = .of r s' ∧ (∀ e, r = .error e → s' = s)
      ∧ s'.2.Fits n m := by
  show ∃ r s', next Field.right (.ofList Field.left) s = .of r s' ∧ _
  obtain ⟨i, hn, hi⟩ := h.index
  have hindex : ((windowField Field.right).get s).index.toInt = i := hi.toInt_eq
  have hstop : ((windowField Field.right).get s).stop.toInt = m := h.stop_eq
  by_cases hend : (i : Int) ≥ m
  · refine ⟨.error .ended, s, ?_, fun _ _ => rfl, h⟩
    simp only [next, Window.next, Act.bind_apply, Field.read_apply, hindex, hstop, if_pos hend,
      Act.fail_apply]
    rfl
  · have hget : (Sequence.ofList Field.left).get ((windowField Field.right).get s).index s
        = .of (match s.1[i]? with
          | some x => .ok x
          | none => .error (.refused .index)) s := Sequence.get_of_standsAt hi s
    cases hx : s.1[i]? with
    | none =>
        rw [hx] at hget
        refine ⟨.error (.refused .index), s, ?_, fun _ _ => rfl, h⟩
        simp only [next, Window.next, Act.bind_apply, Field.read_apply, hindex, hstop, if_neg hend,
          hget]
        rfl
    | some x =>
        rw [hx] at hget
        have hfollowing := hi.following (by omega)
        refine ⟨.ok x, (s.1, s.2.movedTo s.2.window.index.following
          (some s.2.window.index.following.preceding)), ?_, (fun e he => nomatch he),
          h.movedTo (Nat.le_succ_of_le hn) hfollowing _⟩
        simp only [next, Window.next, Act.bind_apply, Field.read_apply, hindex, hstop, if_neg hend,
          hget]
        rfl

theorem lands_next (h : s.2.Fits n m) :
    Lands (source owner) (reset Field.right) footing (Fits n m) (.gesture (.call .next)) s := by
  obtain ⟨r, s', hnext, hkept, hfits⟩ := next_fits owner h
  refine lands_of_ask (Gesture.ask_call_of (Call.ask_step_of hnext))
    (treads_of_kept (fun hslip => nomatch hslip.1) fun e he => ?_) hfits
  cases r with
  | ok x => exact nomatch he
  | error e => exact hkept e rfl

theorem lands_previous (h : s.2.Fits n m) :
    Lands (source owner) (reset Field.right) footing (Fits n m) (.gesture (.call .previous)) s := by
  obtain ⟨i, hn, hi⟩ := h.index
  have hindex : (Field.right.get s).window.index.toInt = i := hi.toInt_eq
  have hstart : (Field.right.get s).window.start.toInt = n := h.start.toInt_eq
  have htold : (footing s.2).index = (i : Int) - n := by
    show s.2.window.index.toInt - s.2.window.start.toInt = _
    rw [hi.toInt_eq, h.start.toInt_eq]
  by_cases hfront : (i : Int) ≤ n
  · have hprevious : (source owner).step .backward s = .of (.error .ended) s := by
      show previous Field.right (.ofList Field.left) s = _
      simp only [previous, Act.bind_apply, Field.read_apply, hindex, hstart, if_pos hfront]
      rfl
    have hslip : ¬ Gone footing s := by
      rintro ⟨hpos, -⟩
      omega
    exact lands_of_ask (Gesture.ask_call_of (Call.ask_step_of hprevious))
      (treads_of_kept (fun hgone => hslip hgone.2) (fun _ _ => rfl)) h
  · obtain ⟨j, rfl⟩ := Nat.exists_eq_succ_of_ne_zero (by omega : i ≠ 0)
    have hback := hi.preceding
    have hprevious : (source owner).step .backward s = .of (match s.1[j]? with
        | some x => .ok x
        | none => .error (.refused .index))
        (s.1, s.2.movedTo s.2.window.index.preceding (some s.2.window.index.preceding)) := by
      show previous Field.right (.ofList Field.left) s = _
      simp only [previous, Act.bind_apply, Field.read_apply, hindex, hstart, if_neg hfront]
      exact Sequence.get_of_standsAt hback _
    have hbehind : (footing s.2).behind = j := by
      show s.2.window.index.toInt - 1 = j
      rw [hi.toInt_eq]
      omega
    refine lands_of_ask (Gesture.ask_call_of (Call.ask_step_of hprevious))
      (treads_previous (by omega) hbehind ?_ rfl ?_) (h.movedTo (by omega) hback _)
    · cases s.1[j]? <;> rfl
    · simp only [Footing.back, htold, hbehind]
      simp only [footing, movedTo, hback.toInt_eq, h.start.toInt_eq, hback.target,
        Footing.mk.injEq, and_true]
      omega

/-- A replacement acts on the target. -/
theorem set_apply (owner : String) (s : List α × ListWindow) (x : α) :
    (source owner).set x s
      = match editAt .set (fun xs j => xs.set j x) s.1 (footing s.2).target with
        | .ok xs => .value () (xs, s.2)
        | .error e => .failure e s := by
  show set Field.right (.ofList Field.left) x s = _
  cases hlast : (Field.right.get s).last.filter Place.fromFront with
  | none =>
      have htarget : (footing s.2).target = none := congrArg (Option.map Place.toInt) hlast
      simp only [set, Act.bind_apply, Field.read_apply, hlast, Act.fail_apply, htarget, editAt]
  | some i =>
      have htarget : (footing s.2).target = some i.toInt := congrArg (Option.map Place.toInt) hlast
      simp only [set, Sequence.ofList, Act.bind_apply, Field.read_apply, hlast, htarget, editAt]
      have hsame : Place.index? (Field.left.get s).length i.toInt
          = Place.index? s.1.length i.toInt := rfl
      rw [hsame]
      cases Place.index? s.1.length i.toInt <;> rfl

/-- Whatever happens, the window treads as it should. -/
theorem lands (owner : String) (h : s.2.Fits n m) (i : Occurrence α) :
    Lands (source owner) (reset Field.right) footing (Fits n m) i s := by
  match i with
  | .edited edit => exact lands_edited edit h
  | .gesture (.call .next) => exact lands_next h
  | .gesture (.call .previous) => exact lands_previous h
  | .gesture (.call .hasNext) =>
      have hof : (source owner).hasMore .forward s = .of (.ok _) s := rfl
      exact lands_of_other (Gesture.ask_call_of (Call.ask_hasMore_of hof)) h (by simp)
  | .gesture (.call .hasPrevious) =>
      have hof : (source owner).hasMore .backward s = .of (.ok _) s := rfl
      exact lands_of_other (Gesture.ask_call_of (Call.ask_hasMore_of hof)) h (by simp)
  | .gesture .nextIndex =>
      have hask : Gesture.nextIndex.ask (source owner) (reset Field.right) s
          = .of (.ok (.index (footing s.2).index)) s :=
        Gesture.ask_nextIndex_of (nextIndex_apply owner s)
      exact lands_of_other hask h (by simp)
  | .gesture .previousIndex =>
      have hask : Gesture.previousIndex.ask (source owner) (reset Field.right) s
          = .of (.ok _) s := rfl
      exact lands_of_other hask h (by simp)
  | .gesture .reset =>
      have hask : Gesture.reset.ask (source owner) (reset Field.right) s
          = .of (.ok _) (s.1, s.2.movedTo s.2.window.start none) := rfl
      exact lands_of_other hask (h.movedTo (Nat.le_refl n) h.start none) (by simp)
  | .gesture (.call (.add x)) =>
      have hof : (source owner).add x s = .of (.error (.unsupported owner .add)) s := rfl
      exact lands_of_other (Gesture.ask_call_of (Call.ask_add_of hof)) h (by simp)
  | .gesture (.call .remove) =>
      have hof : (source owner).remove s = .of (.error (.unsupported owner .remove)) s := rfl
      exact lands_of_other (Gesture.ask_call_of (Call.ask_remove_of hof)) h (by simp)
  | .gesture (.call (.set x)) =>
      obtain ⟨r, s', hof, hsame⟩ := edit_cases (set_apply owner s x)
      have hfits : s'.2.Fits n m := by rwa [or_self_iff.mp hsame]
      exact lands_of_other (Gesture.ask_call_of (Call.ask_set_of hof)) hfits (by simp)

end ListWindow

/-! ## §5. Every run. -/

/-- A move that fails keeps the footing of a cursor or a window, unless it goes back to an element
that is gone: over every list, with every row of gestures and edits from outside, and from every
start that, if it has a fixed width, holds the positions that the run can lead to. -/
theorem failed_moves (owner : String) (xs : List α) (occurrences : List (Occurrence α)) :
    (∀ (start : Place) (n : Nat), start.StandsAt n (n + occurrences.length) →
        Throughout (Occurrence.ask Cursor.source (Cursor.reset Field.right)) (fun _ _ _ _ _ => ())
          (fun _ => Treads Cursor.footing) occurrences () (xs, { position := start }))
      ∧ ∀ start stop : Place, Window.checkBounds xs.length start.toInt stop.toInt = .ok () →
        start.ReachesTo stop.toInt.toNat →
        Throughout (Occurrence.ask (ListWindow.source owner) (ListWindow.reset Field.right))
          (fun _ _ _ _ _ => ()) (fun _ => Treads ListWindow.footing) occurrences ()
          (xs, { window := .fresh start stop }) := by
  constructor
  · intro start n hstart
    -- Each gesture takes the cursor on by one at most.
    apply throughout_of_invariant
      (fun k _ (s : List α × Cursor) => Cursor.Fits (n + occurrences.length) k s.2) ?_
      ⟨n, hstart, Nat.le_refl _⟩
    rintro k l s i - hfits
    exact Cursor.lands hfits i
  · intro start stop hbounds hreach
    obtain ⟨hstart, hle, -⟩ := Window.checkBounds_eq_ok_iff.mp hbounds
    have hstands : start.StandsAt start.toInt.toNat stop.toInt.toNat :=
      ⟨by omega, by omega, hreach⟩
    have hstop : stop.toInt = stop.toInt.toNat := by omega
    apply throughout_of_invariant
      (fun _ _ (s : List α × ListWindow) => s.2.Fits start.toInt.toNat stop.toInt.toNat) ?_
      ⟨hstands, hstop, _, Nat.le_refl _, hstands⟩
    rintro k l s i - hfits
    exact ListWindow.lands owner hfits i

/-- A cursor and a window, on a list that shrinks below them and grows again: moves that fail at
either end and behind it, edits among them. -/
theorem failed_moves_three :
    (Place.plain 1).StandsAt 1 9
      ∧ Throughout (Occurrence.ask Cursor.source (Cursor.reset Field.right)) (fun _ _ _ _ _ => ())
        (fun _ => Treads Cursor.footing)
        [.gesture (.call .next), .gesture (.call .next), .edited (List.take 1),
          .gesture (.call .next), .gesture (.call .previous), .gesture (.call (.set 7)),
          .edited (fun _ => [4, 5, 6]), .gesture (.call .previous)] ()
        ([1, 2, 3], { position := .plain 1 })
      ∧ Window.checkBounds 3 1 3 = .ok () ∧ (Place.plain 1).ReachesTo 3
      ∧ Throughout (Occurrence.ask (ListWindow.source "ArrayListIterator")
          (ListWindow.reset Field.right)) (fun _ _ _ _ _ => ()) (fun _ => Treads ListWindow.footing)
        [.gesture (.call .next), .gesture (.call .next), .edited (List.take 1),
          .gesture (.call .next), .gesture (.call .previous), .gesture (.call (.set 7)),
          .edited (fun _ => [4, 5, 6]), .gesture (.call .previous)] ()
        ([1, 2, 3], { window := .fresh (.plain 1) (.plain 3) }) := by
  have hstart : (Place.plain 1).StandsAt 1 9 := Place.standsAt_plain (by decide)
  have hbounds : Window.checkBounds 3 1 3 = .ok () := rfl
  obtain ⟨hcursor, hwindow⟩ := failed_moves "ArrayListIterator" [1, 2, 3]
    [.gesture (.call .next), .gesture (.call .next), .edited (List.take 1),
      .gesture (.call .next), .gesture (.call .previous), .gesture (.call (.set 7)),
      .edited (fun _ => [4, 5, 6]), .gesture (.call .previous)]
  exact ⟨hstart, hcursor (.plain 1) 1 hstart, hbounds, trivial,
    hwindow (.plain 1) (.plain 3) hbounds trivial⟩

/-- Not every move that fails leaves index and target as they were: behind a list that was cleared,
a move back fails and takes a cursor with it, and a window likewise. -/
theorem failed_moves_not_always_unmoved :
    (¬ Throughout (Occurrence.ask Cursor.source (Cursor.reset Field.right)) (fun _ _ _ _ _ => ())
        (fun _ => Unmoved Cursor.footing)
        [.gesture (.call .next), .edited (fun _ => []), .gesture (.call .previous)] () ([1], {}))
      ∧ ¬ Throughout (Occurrence.ask (ListWindow.source "ArrayListIterator")
          (ListWindow.reset Field.right)) (fun _ _ _ _ _ => ())
        (fun _ => Unmoved ListWindow.footing)
        [.gesture (.call .next), .edited (fun _ => []), .gesture (.call .previous)] ()
        ([1], { window := .fresh (.plain 0) (.plain 1) }) := by
  constructor
  · rintro ⟨r₁, s₁, h₁, -, r₂, s₂, h₂, -, r₃, s₃, h₃, hunmoved, -⟩
    have hnext : (Occurrence.gesture (.call .next)).ask Cursor.source (Cursor.reset Field.right)
        ([1], {}) = .of (.ok (.answer (.element 1))) ([1], ⟨.plain 1, some (.plain 0)⟩) := rfl
    obtain ⟨rfl, rfl⟩ := Outcome.of_inj (hnext.symm.trans h₁)
    have hcleared : (Occurrence.edited fun _ => []).ask Cursor.source (Cursor.reset Field.right)
        ([1], ⟨.plain 1, some (.plain 0)⟩)
        = .of (.ok (.answer .done)) ([], ⟨.plain 1, some (.plain 0)⟩) := rfl
    obtain ⟨rfl, rfl⟩ := Outcome.of_inj (hcleared.symm.trans h₂)
    have hprevious : (Occurrence.gesture (.call .previous)).ask Cursor.source
        (Cursor.reset Field.right) (([], ⟨.plain 1, some (.plain 0)⟩) : List Nat × Cursor)
        = .of (.error (.refused .index)) ([], ⟨.plain 0, some (.plain 0)⟩) := rfl
    obtain ⟨rfl, rfl⟩ := Outcome.of_inj (hprevious.symm.trans h₃)
    exact absurd (hunmoved (.inr rfl) _ rfl).1 (by decide)
  · rintro ⟨r₁, s₁, h₁, -, r₂, s₂, h₂, -, r₃, s₃, h₃, hunmoved, -⟩
    have hnext : (Occurrence.gesture (.call .next)).ask (ListWindow.source "ArrayListIterator")
        (ListWindow.reset Field.right) ([1], { window := .fresh (.plain 0) (.plain 1) })
        = .of (.ok (.answer (.element 1)))
          ([1], ⟨⟨.plain 0, .plain 1, .plain 1⟩, some (.plain 0)⟩) := rfl
    obtain ⟨rfl, rfl⟩ := Outcome.of_inj (hnext.symm.trans h₁)
    have hcleared : (Occurrence.edited fun _ => []).ask (ListWindow.source "ArrayListIterator")
        (ListWindow.reset Field.right)
        ([1], ⟨⟨.plain 0, .plain 1, .plain 1⟩, some (.plain 0)⟩)
        = .of (.ok (.answer .done))
          ([], ⟨⟨.plain 0, .plain 1, .plain 1⟩, some (.plain 0)⟩) := rfl
    obtain ⟨rfl, rfl⟩ := Outcome.of_inj (hcleared.symm.trans h₂)
    have hprevious : (Occurrence.gesture (.call .previous)).ask
        (ListWindow.source "ArrayListIterator") (ListWindow.reset Field.right)
        (([], ⟨⟨.plain 0, .plain 1, .plain 1⟩, some (.plain 0)⟩) : List Nat × ListWindow)
        = .of (.error (.refused .index))
          ([], ⟨⟨.plain 0, .plain 1, .plain 0⟩, some (.plain 0)⟩) := rfl
    obtain ⟨rfl, rfl⟩ := Outcome.of_inj (hprevious.symm.trans h₃)
    exact absurd (hunmoved (.inr rfl) _ rfl).1 (by decide)

end Cursors
