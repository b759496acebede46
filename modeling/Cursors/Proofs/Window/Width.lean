/-
  Cursors.Proofs.Window.Width
  ───────────────────────────
  **WINDOWS IN A FIXED WIDTH.**

  A window counts in the type of its start, and answers in it.  A type of a
  fixed width wraps around, which shows in two places:

      indexes      are exact up to the greatest number of the width, and below
                   zero if there is a sign (`computedFrom_of_reachesTo`)
      moves        of a window that ends behind that number never arrive
                   there (`Pane.Short`)
-/
import Cursors.Proofs.Window.Pane
import Cursors.Workspace.Ask

namespace Cursors

variable {α : Type}

/-! ## §1. Widths. -/

namespace Number

/-- What wraps around does not go beyond the width. -/
theorem Width.wrap_le_greatest (w : Width) (n : Int) : w.wrap n ≤ w.greatest := by
  cases w with
  | unsigned bits =>
      have hpos := twoTo_pos bits
      have hlt : n % (twoTo bits : Int) < twoTo bits := Int.emod_lt_of_pos n (by omega)
      show n % (twoTo bits : Int) ≤ twoTo bits - 1
      omega
  | signed bits =>
      have hlt : Int.bmod n (twoTo bits) < (twoTo bits + 1 : Nat) / 2 := Int.bmod_lt (twoTo_pos bits)
      have hhalf : (twoTo bits + 1) / 2 = twoTo (bits - 1) := by
        cases bits with
        | zero => rfl
        | succ b =>
            rw [twoTo_succ, Nat.add_sub_cancel]
            omega
      show Int.bmod n (twoTo bits) ≤ twoTo (bits - 1) - 1
      omega

theorem Width.wrap_zero (w : Width) : w.wrap 0 = 0 := by
  cases w with
  | unsigned bits => exact Int.zero_emod _
  | signed bits => exact Int.zero_bmod

end Number

namespace Place

/-- A position of a fixed width is a number of this width. -/
def HeldInWidth : Place → Prop
  | .fixed width n => width.holds n = true
  | _ => True

instance (p : Place) : Decidable p.HeldInWidth :=
  match p with
  | .fixed width n => inferInstanceAs (Decidable (width.holds n = true))
  | .plain _ | .truth _ => inferInstanceAs (Decidable True)

/-- Whether there are numbers below zero in the type of a position: a width needs a bit for the
sign. -/
def hasSign : Place → Bool
  | .fixed (.unsigned _) _ | .fixed (.signed 0) _ => false
  | _ => true

end Place

/-! ## §2. Indexes as they are answered. -/

namespace Workspace

/-- An index is answered as it is, if the type that it is computed in has it. -/
theorem computedFrom_of_reachesTo {p : Place} {bound : Nat} {k : Int} (hp : p.ReachesTo bound)
    (hlow : -1 ≤ k) (hk : k ≤ bound) (hsign : 0 ≤ k ∨ p.hasSign = true) :
    (computedFrom p k).integer? = some k := by
  cases p with
  | plain n => rfl
  | truth b => rfl
  | fixed width n =>
      have hgreatest : (bound : Int) ≤ width.greatest := hp
      show some (width.wrap k) = some k
      rcases Int.lt_trichotomy k 0 with hneg | rfl | hpos
      · obtain rfl : k = -1 := by omega
        match width, hsign with
        | .signed (bits + 1), _ =>
            have htwo := Number.twoTo_pos bits
            have hholds : (Number.Width.signed (bits + 1)).holds (-1) = true := by
              simp only [Number.Width.holds, Number.Width.least, Number.Width.greatest,
                Nat.add_sub_cancel, decide_eq_true_eq]
              omega
            rw [Number.Width.wrap_of_holds (by simp) hholds]
      · rw [width.wrap_zero]
      · obtain ⟨i, rfl⟩ := Int.eq_ofNat_of_zero_le (Int.le_of_lt hpos)
        rw [Place.wrap_eq_self (Int.ofNat_le.mp hk) hgreatest (by omega)]

/-- Windows answer with indexes in the type of their start. -/
theorem indexValue_of_listWindow {v items : Value} {w : ListWindow} {s : Store}
    (h : s.iterator? v = some (.listWindow items w)) (k : Int) :
    indexValue v k s = .value (computedFrom w.window.start k) s
      ∧ indexBefore v k s = .value (computedFrom w.window.start k) s := by
  have hbase : s.indexBase s.levels v
      = if w.window.start.isFixed then w.window.start else .plain 0 := by
    unfold Store.levels Store.indexBase
    rw [h]
  unfold indexValue indexBefore
  rw [Act.reading_apply, Act.reading_apply, hbase]
  cases w.window.start with
  | plain n => exact ⟨rfl, rfl⟩
  | truth b => exact ⟨rfl, rfl⟩
  | fixed width n => exact ⟨rfl, rfl⟩

end Workspace

/-! ## §3. Windows that never end. -/

namespace Pane

variable {width : Number.Width} {p : Pane α}

/-- A step that found an element has gone on to the position that follows. -/
def GoneOn {β : Type} (p : Pane α) (r : Except Failure β) (p' : Pane α) : Prop :=
  ∀ x, r = .ok x → p'.view.window = { p.view.window with index := p.view.window.index.following }

/-- To read a position notes it, and leaves the window where it is. -/
theorem after_get (q : Place) (p : Pane α) :
    (cells.get q).After p fun _ p' => p'.view = p.view := by
  show (logField.modify (· ++ [q.toInt]) >>= fun _ =>
    (Sequence.ofList itemsField).get q : Act (Pane α) α).After p _
  apply Act.after_modify
  refine (Sequence.after_get_ofList itemsField q _).mono ?_
  rintro r p' rfl
  rfl

theorem after_next (owner : String)
    (hmore : p.view.window.index.toInt < p.view.window.stop.toInt) :
    (source owner).next.After p (GoneOn p) := by
  have hread : (Window.next (ListWindow.windowField viewField) cells).After p (GoneOn p) := by
    unfold Window.next
    apply Act.after_read
    show (if p.view.window.index.toInt ≥ p.view.window.stop.toInt then _ else _ :
      Act (Pane α) α).After p _
    rw [if_neg (Int.not_le.mpr hmore)]
    refine (after_get p.view.window.index p).bind ?_ (fun _ _ _ => nofun)
    intro x p' hview
    apply Act.after_modify
    refine Act.after_pure fun _ _ => ?_
    show { p'.view.window with index := p'.view.window.index.following } = _
    rw [hview]
  refine hread.bind ?_ (fun _ _ _ => nofun)
  intro x p' hgone
  exact Act.after_modify (Act.after_pure fun _ _ => hgone x rfl)

theorem after_ask_next (owner : String)
    (hmore : p.view.window.index.toInt < p.view.window.stop.toInt) :
    ((Gesture.call .next).ask (source owner) rewind).After p (GoneOn p) := by
  have hcall : (Call.next.ask (source owner)).After p (GoneOn p) := by
    refine (after_next owner hmore).bind ?_ (fun _ _ _ => nofun)
    intro x p' hgone
    exact Act.after_pure fun _ _ => hgone x rfl
  refine hcall.bind ?_ (fun _ _ _ => nofun)
  intro a p' hgone
  exact Act.after_pure fun _ _ => hgone a rfl

/-- The window ends behind the greatest number of the width in which it counts. -/
structure Short (width : Number.Width) (p : Pane α) : Prop where
  behind : width.greatest < p.view.window.stop.toInt
  counts : ∃ i, i ≤ width.greatest ∧ p.view.window.index = .fixed width i

theorem Short.lt_stop (h : p.Short width) :
    p.view.window.index.toInt < p.view.window.stop.toInt := by
  obtain ⟨i, hi, hindex⟩ := h.counts
  rw [hindex]
  exact Int.lt_of_le_of_lt hi h.behind

/-- There is always a further element. -/
theorem Short.hasNext (h : p.Short width) (owner : String) :
    (source owner).hasNext p = .value true p := by
  show Outcome.value (decide (p.view.window.index.toInt < p.view.window.stop.toInt)) p = _
  rw [decide_eq_true h.lt_stop]

/-- The window goes on in its width, around its end if need be. -/
theorem Short.gone_on {β : Type} {p' : Pane α} {x : β} (h : p.Short width)
    (hgone : GoneOn p (.ok x) p') : p'.Short width := by
  obtain ⟨i, -, hindex⟩ := h.counts
  have hwindow := hgone x rfl
  rw [hindex] at hwindow
  refine ⟨?_, width.wrap (i + 1), width.wrap_le_greatest _, ?_⟩
  · rw [hwindow]
    exact h.behind
  · rw [hwindow]
    rfl

end Pane

end Cursors
