/-
  Cursors.Workspace.Scatter
  ─────────────────────────
  **SETS.**

  A set does not keep its members in order of arrival.  Each has a number,
  its residue, and goes to the slot which the residue names among as many as
  there are; if the slot is taken, to another one on a path that the residue
  determines.  A member that is taken out leaves its slot vacated: paths go
  on through it, and a later member may settle there.  When three fifths of
  the slots are no longer free, all members move to others, at least four
  times as many as there are members.  Walks go from slot to slot, so that
  small integers come in ascending order.

  The view of a set is the list of its members in the order of their slots.
  Up to this order an insertion adds one member, `members_insert`, and
  `pop?` takes one out, `members_pop`.
-/
import Cursors.Workspace.Value

namespace Cursors.Workspace

/-! ## §1. Slots. -/

/-- A slot for a member. -/
inductive Slot where
  | free
  /-- Left by a member that was taken out. -/
  | vacated
  | taken (residue : Nat) (member : Value)
  deriving Repr, DecidableEq

/-- The member in a slot. -/
def Slot.member? : Slot → Option Value
  | .taken _ x => some x
  | _ => none

/-- A slot, vacated if `same` accepts its member. -/
def Slot.without (same : Value → Bool) : Slot → Slot
  | .taken residue x => if same x then .vacated else .taken residue x
  | slot => slot

/-- The members in some slots, in order. -/
def membersOf (slots : List Slot) : List Value := slots.filterMap Slot.member?

/-- So many slots without members. -/
def freeSlots (width : Nat) : List Slot := List.replicate width .free

/-- A set: its slots, and the one from which the next member is taken that nobody names. -/
structure Scatter where
  slots : List Slot := freeSlots 8
  finger : Nat := 0
  deriving Repr, DecidableEq

namespace Scatter

/-! ## §2. The view. -/

/-- The members, in the order in which walks meet them. -/
def members (t : Scatter) : List Value := membersOf t.slots

/-- The number of members. -/
def size (t : Scatter) : Nat := t.members.length

/-- The first member from a slot on, with its slot. -/
def memberFrom (t : Scatter) (slot : Nat) : Option (Value × Nat) :=
  match (t.slots.drop slot).findIdx? (·.member?.isSome) with
  | none => none
  | some k => ((t.slots[slot + k]?).bind Slot.member?).map fun x => (x, slot + k)

/-! ## §3. Paths. -/

/-- The slots that are tried from one on: ten in a row if there is room for them. -/
def neighbours (width slot : Nat) : List Nat :=
  if slot + 9 < width then (List.range 10).map (slot + ·) else [slot]

/-- The slot for a new member on its path, for at most so many turns of it: the last vacated
one before the first free one, or else the free one. -/
def place (slots : List Slot) : Nat → Nat → Nat → Option Nat → Option Nat
  | 0, _, _, vacated => vacated
  | turns + 1, slot, rest, vacated =>
      let row := neighbours slots.length slot
      let before := row.takeWhile fun i => slots[i]? ≠ some .free
      let vacated := (before.reverse.find? fun i => slots[i]? = some .vacated).or vacated
      match row.find? fun i => slots[i]? = some .free with
      | some i => some (vacated.getD i)
      | none =>
          let rest := rest / 32
          place slots turns ((slot * 5 + 1 + rest) % slots.length) rest vacated

/-- Slots with a further member.  Paths come to every slot, after at most so many turns in
which the residue has a part. -/
def settle (slots : List Slot) (residue : Nat) (x : Value) : List Slot :=
  match place slots (slots.length + 16) (residue % slots.length) residue none with
  | some i => slots.set i (.taken residue x)
  | none => slots ++ [.taken residue x]

/-! ## §4. Changes. -/

/-- The least power of two above `n`, from eight on. -/
def widthAbove (n : Nat) : Nat := max 8 (Number.twoTo (Nat.log2 (max n 1) + 1))

/-- The members of some slots, settled one after the other in others. -/
def move (slots made : List Slot) : List Slot :=
  slots.foldl (fun made slot => match slot with
    | .taken residue x => settle made residue x
    | _ => made) made

/-- The set with room for more: three fifths of its slots may be other than free. -/
def roomy (t : Scatter) : Scatter :=
  if t.slots.countP (· ≠ .free) * 5 < (t.slots.length - 1) * 3 then t
  else { t with slots := move t.slots (freeSlots (widthAbove (4 * t.size))) }

/-- Put in a member that is not there. -/
def insert (t : Scatter) (residue : Nat) (x : Value) : Scatter :=
  roomy { t with slots := settle t.slots residue x }

/-- Take out the members that `same` accepts. -/
def erase (t : Scatter) (same : Value → Bool) : Scatter :=
  { t with slots := t.slots.map (Slot.without same) }

/-- Take out a member that nobody names: the first one from the finger on, or else the first of
all.  The finger goes behind it. -/
def pop? (t : Scatter) : Option (Value × Scatter) :=
  ((t.memberFrom (t.finger % t.slots.length)).or (t.memberFrom 0)).map fun (x, slot) =>
    (x, { slots := t.slots.set slot .vacated, finger := slot + 1 })

/-- The set without members; the finger stays. -/
def clear (t : Scatter) : Scatter := { t with slots := freeSlots 8 }

/-! ## §5. Laws of the view. -/

@[simp] theorem membersOf_free (slots : List Slot) :
    membersOf (.free :: slots) = membersOf slots := rfl

@[simp] theorem membersOf_vacated (slots : List Slot) :
    membersOf (.vacated :: slots) = membersOf slots := rfl

@[simp] theorem membersOf_taken (residue : Nat) (x : Value) (slots : List Slot) :
    membersOf (.taken residue x :: slots) = x :: membersOf slots := rfl

@[simp] theorem membersOf_freeSlots (width : Nat) : membersOf (freeSlots width) = [] := by
  simp [membersOf, freeSlots, List.filterMap_replicate, Slot.member?]

@[simp] theorem members_clear (t : Scatter) : t.clear.members = [] := membersOf_freeSlots 8

/-- What is found on a path holds no member. -/
theorem place_empty (slots : List Slot) (turns slot rest : Nat) (vacated : Option Nat)
    (hv : ∀ i ∈ vacated, slots[i]? = some .vacated) :
    ∀ i ∈ place slots turns slot rest vacated,
      slots[i]? = some .free ∨ slots[i]? = some .vacated := by
  induction turns generalizing slot rest vacated with
  | zero => exact fun i hi => .inr (hv i hi)
  | succ turns ih =>
      have hv' : ∀ (before : List Nat),
          ∀ i ∈ (before.find? fun i => slots[i]? = some .vacated).or vacated,
            slots[i]? = some .vacated := by
        intro before i hi
        rcases h : before.find? fun i => slots[i]? = some .vacated with _ | j
        · rw [h] at hi
          exact hv i hi
        · rw [h] at hi
          obtain rfl : j = i := by simpa using hi
          simpa using List.find?_some h
      intro i hi
      simp only [place] at hi
      split at hi
      · next j hj =>
          have hfree : slots[j]? = some .free := by simpa using List.find?_some hj
          generalize hw : Option.or _ vacated = w at hi
          rcases w with _ | k
          · obtain rfl : j = i := by simpa using hi
            exact .inl hfree
          · obtain rfl : k = i := by simpa using hi
            exact .inr (hv' _ k (by rw [hw]; rfl))
      · exact ih _ _ _ (hv' _) i hi

/-- A member in an empty slot joins the others. -/
theorem membersOf_set (slots : List Slot) (i residue : Nat) (x : Value)
    (h : slots[i]? = some .free ∨ slots[i]? = some .vacated) :
    (membersOf (slots.set i (.taken residue x))).Perm (x :: membersOf slots) := by
  induction slots generalizing i with
  | nil => simp at h
  | cons slot rest ih =>
      cases i with
      | zero =>
          rcases h with h | h <;>
          · obtain rfl : slot = _ := by simpa using h
            exact .refl _
      | succ i =>
          have hrest := ih i (by simpa using h)
          cases slot with
          | free => exact hrest
          | vacated => exact hrest
          | taken r y => exact (hrest.cons y).trans (.swap x y _)

theorem membersOf_settle (slots : List Slot) (residue : Nat) (x : Value) :
    (membersOf (settle slots residue x)).Perm (x :: membersOf slots) := by
  unfold settle
  split
  · next i hi =>
      exact membersOf_set _ _ _ _ (place_empty _ _ _ _ _ (by simp) i hi)
  · simp [membersOf, Slot.member?]

/-- Members that move to other slots stay what they are. -/
theorem membersOf_move (slots made : List Slot) :
    (membersOf (move slots made)).Perm (membersOf made ++ membersOf slots) := by
  induction slots generalizing made with
  | nil => simp [move, membersOf]
  | cons slot rest ih =>
      cases slot with
      | free => exact ih made
      | vacated => exact ih made
      | taken residue x =>
          exact (ih _).trans (((membersOf_settle made residue x).append_right _).trans
            List.perm_middle.symm)

theorem members_roomy (t : Scatter) : t.roomy.members.Perm t.members := by
  unfold roomy
  split
  · exact .refl _
  · simpa [members] using membersOf_move t.slots (freeSlots (widthAbove (4 * t.size)))

/-- An insertion adds one member. -/
theorem members_insert (t : Scatter) (residue : Nat) (x : Value) :
    (t.insert residue x).members.Perm (x :: t.members) :=
  (members_roomy _).trans (membersOf_settle t.slots residue x)

/-- What is taken out leaves the others in order. -/
theorem members_erase (t : Scatter) (same : Value → Bool) :
    (t.erase same).members = t.members.filter fun x => !same x := by
  show membersOf (t.slots.map _) = (membersOf t.slots).filter _
  induction t.slots with
  | nil => rfl
  | cons slot rest ih =>
      cases slot with
      | free => exact ih
      | vacated => exact ih
      | taken residue x => cases h : same x <;> simp [Slot.without, h, ih]

/-- A member in a slot goes when the slot is vacated. -/
theorem membersOf_vacate (slots : List Slot) (i : Nat) (x : Value)
    (h : (slots[i]?).bind Slot.member? = some x) :
    (membersOf slots).Perm (x :: membersOf (slots.set i .vacated)) := by
  induction slots generalizing i with
  | nil => simp at h
  | cons slot rest ih =>
      cases i with
      | zero =>
          cases slot with
          | free => simp [Slot.member?] at h
          | vacated => simp [Slot.member?] at h
          | taken r y =>
              obtain rfl : y = x := by simpa [Slot.member?] using h
              exact .refl _
      | succ i =>
          have hrest := ih i (by simpa using h)
          cases slot with
          | free => exact hrest
          | vacated => exact hrest
          | taken r y => exact (hrest.cons y).trans (.swap x y _)

theorem memberFrom_eq_some {t : Scatter} {start slot : Nat} {x : Value}
    (h : t.memberFrom start = some (x, slot)) :
    (t.slots[slot]?).bind Slot.member? = some x := by
  unfold memberFrom at h
  split at h
  · simp at h
  · obtain ⟨y, hy, he⟩ := Option.map_eq_some_iff.1 h
    obtain ⟨rfl, rfl⟩ := Prod.mk.inj he
    exact hy

/-- A member that nobody names comes from the set, and the others stay. -/
theorem members_pop {t rest : Scatter} {x : Value} (h : t.pop? = some (x, rest)) :
    t.members.Perm (x :: rest.members) := by
  obtain ⟨⟨y, slot⟩, hy, he⟩ := Option.map_eq_some_iff.1 h
  obtain ⟨rfl, rfl⟩ := Prod.mk.inj he
  refine membersOf_vacate t.slots slot y ?_
  rcases Option.or_eq_some_iff.1 hy with hy | ⟨_, hy⟩ <;> exact memberFrom_eq_some hy

end Scatter

end Cursors.Workspace
