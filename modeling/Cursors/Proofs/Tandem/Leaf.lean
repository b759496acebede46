/-
  Cursors.Proofs.Tandem.Leaf
  ──────────────────────────
  **SOURCES WITHOUT SOURCES IN TANDEM.**

  A window, a cursor, a look-ahead or a single value runs in tandem with
  another one of its kind if what they keep for themselves is alike and what
  they read comes out alike.  Of a container that can be edited only the
  moves are compared here, those of a read-only view: what an edit does is a
  matter of the container.

  A look-ahead catches the end of its source, so it needs a coupling under
  which the failures themselves agree (`Coupling.Exact`).
-/
import Cursors.Primitive.Cursor
import Cursors.Primitive.Peek
import Cursors.Primitive.ReadOnly
import Cursors.Primitive.Single
import Cursors.Primitive.Window
import Cursors.Proofs.Tandem.Coupling

namespace Cursors

variable {σ τ υ κ α : Type} {c : Coupling σ τ}

/-! ## §1. Parts of parts, and failures that agree. -/

theorem Field.Alike.comp {a : Field σ υ} {b : Field τ υ} (h : Field.Alike c a b)
    (inner : Field υ κ) : Field.Alike c (a.comp inner) (b.comp inner) where
  get_eq hmeet := congrArg inner.get (h.get_eq hmeet)
  meet_set := by
    intro s t hmeet u
    show c.Meet (a.set (inner.set u (a.get s)) s) (b.set (inner.set u (b.get t)) t)
    rw [h.get_eq hmeet]
    exact h.meet_set hmeet _

/-- Two runs that fail have failed alike, and meet. -/
def Coupling.Exact (c : Coupling σ τ) : Prop :=
  ∀ {e s e' t}, c.Failed e s e' t → e = e' ∧ c.Meet s t

theorem Act.Tandem.attempt {x : Act σ α} {y : Act τ α} (hexact : c.Exact) (h : Act.Tandem c x y)
    (catches : Failure → Bool) : Act.Tandem c (x.attempt catches) (y.attempt catches) := by
  intro s t hmeet
  unfold Act.attempt
  obtain ⟨a, s', t', hx, hy, hmeet'⟩ | ⟨e, s', e', t', hx, hy, hfailed⟩ | ⟨hx, hy⟩ :=
    (h s t hmeet).split
  · rw [hx, hy]
    exact ⟨rfl, hmeet'⟩
  · obtain ⟨rfl, hmeet'⟩ := hexact hfailed
    rw [hx, hy]
    dsimp only
    split
    · exact ⟨rfl, hmeet'⟩
    · exact hfailed
  · rw [hx, hy]
    trivial

/-! ## §2. Look-aheads. -/

namespace Peek

variable {self : Field σ (Peek α)} {self' : Field τ (Peek α)} {pull : Act σ α} {pull' : Act τ α}

theorem tandem_forward (hexact : c.Exact) (hself : Field.Alike c self self')
    (hpull : Act.Tandem c pull pull') (owner : String) :
    Forward.Tandem c (forward owner self pull) (forward owner self' pull') := by
  have hasked : Act.Tandem c (hasNext self pull) (hasNext self' pull') := by
    refine hself.read.bind fun here => ?_
    obtain ⟨_ | held, _ | _⟩ := here
    · refine (hpull.attempt hexact _).bind fun found => ?_
      cases found with
      | ok x => exact (hself.modify _).bind fun _ => Act.tandem_pure true
      | error e => exact (hself.modify _).bind fun _ => Act.tandem_pure false
    · exact Act.tandem_pure false
    · exact Act.tandem_pure true
    · exact Act.tandem_pure true
  refine ⟨hasked, ?_, Act.tandem_fail _⟩
  refine hasked.bind fun more => ?_
  cases more with
  | false => exact Act.tandem_fail .ended
  | true =>
      refine hself.read.bind fun here => ?_
      obtain ⟨_ | held, ended⟩ := here
      · exact Act.tandem_fail .ended
      · exact (hself.modify _).bind fun _ => Act.tandem_pure held

end Peek

/-! ## §3. Windows. -/

section

variable {items : Sequence σ α} {items' : Sequence τ α}
  (hget : ∀ p, Act.Tandem c (items.get p) (items'.get p))

namespace Window

variable {self : Field σ Window} {self' : Field τ Window}

theorem tandem_hasNext (hself : Field.Alike c self self') :
    Act.Tandem c (hasNext self) (hasNext self') :=
  hself.read.bind fun _ => Act.tandem_pure _

include hget

theorem tandem_next (hself : Field.Alike c self self') :
    Act.Tandem c (next self items) (next self' items') := by
  refine hself.read.bind fun here => ?_
  split
  · exact Act.tandem_fail .ended
  · exact (hget _).bind fun x => (hself.modify _).bind fun _ => Act.tandem_pure x

theorem tandem_forward (hself : Field.Alike c self self') (owner : String) :
    Forward.Tandem c (forward owner self items) (forward owner self' items') :=
  ⟨tandem_hasNext hself, tandem_next hget hself, Act.tandem_fail _⟩

end Window

namespace ListWindow

variable {self : Field σ ListWindow} {self' : Field τ ListWindow}

include hget

theorem tandem_readOnly (hself : Field.Alike c self self') (owner view : String) :
    TwoWay.Tandem c (TwoWay.readOnly view (twoWay owner self items))
      (TwoWay.readOnly view (twoWay owner self' items')) where
  hasNext := Window.tandem_hasNext (hself.comp _)
  next := (Window.tandem_next hget (hself.comp _)).bind fun x =>
    (hself.modify _).bind fun _ => Act.tandem_pure x
  remove := Act.tandem_fail _
  hasPrevious := hself.read.bind fun _ => Act.tandem_pure _
  previous := by
    refine hself.read.bind fun here => ?_
    split
    · exact Act.tandem_fail .ended
    · exact (hself.write _).bind fun _ => hget _
  nextIndex := hself.read.bind fun _ => Act.tandem_pure _
  previousIndex := (hself.read.bind fun _ => Act.tandem_pure _).bind fun _ => Act.tandem_pure _
  set _ := Act.tandem_fail _
  add _ := Act.tandem_fail _

end ListWindow

/-! ## §4. Cursors. -/

namespace Cursor

variable {self : Field σ Cursor} {self' : Field τ Cursor}

include hget

theorem tandem_readOnly (hlength : Act.Tandem c items.length items'.length)
    (hself : Field.Alike c self self') (view : String) :
    TwoWay.Tandem c (TwoWay.readOnly view (twoWay self items))
      (TwoWay.readOnly view (twoWay self' items')) where
  hasNext := hself.read.bind fun _ => hlength.bind fun _ => Act.tandem_pure _
  next := by
    refine hself.read.bind fun here => hlength.bind fun n => ?_
    split
    · exact Act.tandem_fail .ended
    · exact (hget _).bind fun x => (hself.modify _).bind fun _ => Act.tandem_pure x
  remove := Act.tandem_fail _
  hasPrevious := hself.read.bind fun _ => Act.tandem_pure _
  previous := by
    refine hself.read.bind fun here => ?_
    split
    · exact Act.tandem_fail .ended
    · exact (hself.write _).bind fun _ => hget _
  nextIndex := hself.read.bind fun _ => Act.tandem_pure _
  previousIndex := (hself.read.bind fun _ => Act.tandem_pure _).bind fun _ => Act.tandem_pure _
  set _ := Act.tandem_fail _
  add _ := Act.tandem_fail _

end Cursor

end

/-! ## §5. At most one value. -/

/-- What is kept is looked at, and changed if nothing is against it. -/
theorem Field.Alike.tandem_writeUnless {a : Field σ υ} {b : Field τ υ} (h : Field.Alike c a b)
    (against : υ → Bool) (e : Failure) (change : υ → υ) :
    Act.Tandem c
      (a.read >>= fun here =>
        if against here = true then Act.fail e else a.write (change here))
      (b.read >>= fun here =>
        if against here = true then Act.fail e else b.write (change here)) := by
  refine h.read.bind fun here => ?_
  split
  · exact Act.tandem_fail e
  · exact h.write (change here)

/-- What is kept is looked at, and given if it is there to be given. -/
theorem Field.Alike.tandem_giveIf {a : Field σ υ} {b : Field τ υ} (h : Field.Alike c a b)
    (there : υ → Bool) (e : Failure) (change : υ → υ) (given : υ → α) :
    Act.Tandem c
      (a.read >>= fun here =>
        if there here = true then a.write (change here) >>= fun _ => pure (given here)
        else Act.fail e)
      (b.read >>= fun here =>
        if there here = true then b.write (change here) >>= fun _ => pure (given here)
        else Act.fail e) := by
  refine h.read.bind fun here => ?_
  split
  · exact (h.write (change here)).bind fun _ => Act.tandem_pure (given here)
  · exact Act.tandem_fail e

theorem Forward.tandem_empty :
    Forward.Tandem c (Forward.empty : Forward σ α) Forward.empty :=
  ⟨Act.tandem_pure false, Act.tandem_fail .ended, Act.tandem_fail .nothingHeld⟩

theorem Single.tandem_forward {self : Field σ (Single α)} {self' : Field τ (Single α)}
    {removable : Act σ Bool} {removable' : Act τ Bool} (hself : Field.Alike c self self')
    (hremovable : Act.Tandem c removable removable') (owner : String) :
    Forward.Tandem c (forward owner removable self) (forward owner removable' self') where
  hasNext := hself.read.bind fun _ => Act.tandem_pure _
  next := hself.tandem_giveIf _ _ _ _
  remove := by
    refine hremovable.bind fun allowed => ?_
    cases allowed with
    | false => exact Act.tandem_fail _
    | true => exact hself.tandem_writeUnless _ _ _

theorem ListSingle.tandem_twoWay {self : Field σ (ListSingle α)} {self' : Field τ (ListSingle α)}
    (hself : Field.Alike c self self') (owner : String) :
    TwoWay.Tandem c (twoWay owner self) (twoWay owner self') where
  hasNext := hself.read.bind fun _ => Act.tandem_pure _
  next := hself.tandem_giveIf _ _ _ _
  remove := hself.tandem_writeUnless _ _ _
  hasPrevious := hself.read.bind fun _ => Act.tandem_pure _
  previous := hself.tandem_giveIf _ _ _ _
  nextIndex := hself.read.bind fun _ => Act.tandem_pure _
  previousIndex := (hself.read.bind fun _ => Act.tandem_pure _).bind fun _ => Act.tandem_pure _
  set _ := hself.tandem_writeUnless _ _ _
  add _ := Act.tandem_fail _

end Cursors
