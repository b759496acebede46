/-
  Cursors.Proofs.Ring.Round
  ─────────────────────────
  **A RING GOES ROUND ALL THAT IS LEFT.**

  A `Round` is a ring without positions that wrap: the elements, and what
  was done last.  The next element is the one that follows, all the way
  round, the element returned last; `ahead` lists one turn from there on:

      next    takes the first of them to the end
      remove  drops the last of them, which is the one returned last
      reset   starts again with the elements in their order

  A ring responds as its round does (`Ring.ask_respond`), hence every run of
  calls goes round the elements that the removals left (`Round.cycles_all_left`).
-/
import Mathlib.Data.List.Rotate
import Cursors.Combinator.Ring
import Cursors.Proofs.Part
import Cursors.Proofs.Pipeline.Denotation

namespace Cursors

variable {σ α : Type}

/-! ## §1. Rounds. -/

/-- A call of a ring. -/
inductive Spin where
  | pull (p : Pull)
  | reset
  deriving Repr, DecidableEq

/-- Make a call of a ring. -/
def Spin.ask (source : Forward σ α) (reset : Act σ Unit) : Spin → Act σ (Answer α)
  | .pull p => p.ask source
  | .reset => do
      reset
      return .done

/-- The number of elements that a call removed, by what it was answered. -/
def Spin.removals : Spin → Except Failure α → Nat
  | .pull .remove, .ok _ => 1
  | _, _ => 0

theorem Spin.ask_reset_of {source : Forward σ α} {reset : Act σ Unit} {s s' : σ}
    (h : reset s = .value () s') : Spin.reset.ask source reset s = .of (.ok .done) s' :=
  Act.map_of (r := .ok ()) (fun _ => Answer.done) h

namespace Round

/-- What was done last: a new start, or a return or a removal at an index. -/
inductive Mark where
  | start
  | returned (i : Nat)
  | removed (i : Nat)
  deriving Repr, DecidableEq

end Round

/-- The elements, and what was done last. -/
structure Round (α : Type) where
  items : List α
  mark : Round.Mark := .start
  deriving Repr, DecidableEq

namespace Round

/-- The index of the element that follows, all the way round, what was returned or removed last. -/
def upcoming (c : Round α) : Nat :=
  match c.mark with
  | .start => 0
  | .returned i => (i + 1) % c.items.length
  | .removed i => i % c.items.length

/-- The elements of one turn, in the order in which they come. -/
def ahead (c : Round α) : List α := c.items.rotate c.upcoming

/-- What a call answers, and where it leads. -/
def respond (c : Round α) : Spin → Except Failure (Answer α) × Round α
  | .pull .hasNext => (.ok (.truth (!c.items.isEmpty)), c)
  | .pull .next =>
      match c.items[c.upcoming]? with
      | some x => (.ok (.element x), { c with mark := .returned c.upcoming })
      | none => (.error .ended, c)
  | .pull .remove =>
      match c.mark with
      | .returned i => (.ok .done, { items := c.items.eraseIdx i, mark := .removed i })
      | _ => (.error (.notMoved .remove false), c)
  | .reset => (.ok .done, { c with mark := .start })

/-! ## §2. One turn. -/

section

variable {c : Round α}

theorem length_ahead (c : Round α) : c.ahead.length = c.items.length := List.length_rotate _ _

theorem upcoming_of_start (h : c.mark = .start) : c.upcoming = 0 := by
  unfold upcoming
  rw [h]

theorem upcoming_of_returned {i : Nat} (h : c.mark = .returned i) :
    c.upcoming = (i + 1) % c.items.length := by
  unfold upcoming
  rw [h]

theorem upcoming_of_removed {i : Nat} (h : c.mark = .removed i) :
    c.upcoming = i % c.items.length := by
  unfold upcoming
  rw [h]

theorem upcoming_lt (h : 0 < c.items.length) : c.upcoming < c.items.length := by
  unfold upcoming
  split
  · exact h
  · exact Nat.mod_lt _ h
  · exact Nat.mod_lt _ h

theorem respond_next_of_empty (h : c.items.length = 0) :
    c.respond (.pull .next) = (.error .ended, c) := by
  have hnone : c.items[c.upcoming]? = none := List.getElem?_eq_none (by omega)
  simp only [respond, hnone]

/-- Where there are elements, the upcoming one is returned. -/
theorem respond_next_of_lt (hlt : c.upcoming < c.items.length) :
    c.respond (.pull .next)
      = (.ok (.element c.items[c.upcoming]), { c with mark := .returned c.upcoming }) := by
  simp only [respond, List.getElem?_eq_getElem hlt]

theorem respond_remove_of_returned {i : Nat} (h : c.mark = .returned i) :
    c.respond (.pull .remove)
      = (.ok .done, { items := c.items.eraseIdx i, mark := .removed i }) := by
  simp only [respond, h]

theorem respond_remove_of_unreturned (h : ∀ i, c.mark ≠ .returned i) :
    c.respond (.pull .remove) = (.error (.notMoved .remove false), c) := by
  match hmark : c.mark with
  | .start | .removed _ => simp only [respond, hmark]
  | .returned i => exact absurd hmark (h i)

/-- The first element of a turn is the upcoming one, and it comes last in the next turn. -/
theorem ahead_returned (hlt : c.upcoming < c.items.length) :
    ∃ rest, c.ahead = c.items[c.upcoming] :: rest
      ∧ ahead { c with mark := .returned c.upcoming } = rest ++ [c.items[c.upcoming]] := by
  refine ⟨c.items.drop (c.upcoming + 1) ++ c.items.take c.upcoming, ?_, ?_⟩
  · unfold ahead
    rw [List.rotate_eq_drop_append_take (Nat.le_of_lt hlt), List.drop_eq_getElem_cons hlt,
      List.cons_append]
  · show c.items.rotate ((c.upcoming + 1) % c.items.length) = _
    rw [List.rotate_mod, List.rotate_eq_drop_append_take hlt, List.append_assoc,
      List.take_append_getElem]

/-- A removal drops the last element of the turn, which is the one returned last. -/
theorem ahead_removed {i : Nat} (hmark : c.mark = .returned i) (hi : i < c.items.length) :
    ∃ rest, c.ahead = rest ++ [c.items[i]]
      ∧ ahead { items := c.items.eraseIdx i, mark := .removed i } = rest := by
  refine ⟨c.items.drop (i + 1) ++ c.items.take i, ?_, ?_⟩
  · unfold ahead
    rw [upcoming_of_returned hmark, List.rotate_mod, List.rotate_eq_drop_append_take hi,
      List.append_assoc, List.take_append_getElem]
  · show (c.items.eraseIdx i).rotate (i % (c.items.eraseIdx i).length) = _
    have hlen : (c.items.take i).length = i := List.length_take_of_le (Nat.le_of_lt hi)
    rw [List.rotate_mod, List.eraseIdx_eq_take_drop_succ]
    conv => lhs; arg 2; rw [← hlen]
    rw [List.rotate_append_length_eq]

end

end Round

/-! ## §3. The response of a ring. -/

/-- The size is the expected one. -/
theorem checkSize_of_eq {what : Looped} {expected : Nat} {length : Act σ Nat} {s : σ}
    (h : length s = .value expected s) : checkSize what expected length s = .value () s := by
  unfold checkSize
  rw [Act.bind_apply, h]
  exact congrFun (if_pos rfl) s

/-- Any other size is reported. -/
theorem checkSize_of_ne {what : Looped} {expected actual : Nat} {length : Act σ Nat} {s : σ}
    (h : length s = .value actual s) (hne : actual ≠ expected) :
    checkSize what expected length s = .failure (.resized what expected actual) s := by
  unfold checkSize
  rw [Act.bind_apply, h]
  exact congrFun (if_neg hne) s

namespace Round

/-- The index lies within `n` elements, or right behind them after a removal. -/
def Mark.Within (n : Nat) : Mark → Prop
  | .start => True
  | .returned i => i < n
  | .removed i => i ≤ n

/-- The ring on `n` elements after this was done last. -/
def Mark.ring (n : Nat) : Mark → Ring
  | .start => { expected := n }
  | .returned i => { expected := n, position := i + 1, last := some i }
  | .removed i => { expected := n, position := i }

/-- What was done last was done within the elements. -/
def Valid (c : Round α) : Prop := c.mark.Within c.items.length

/-- The ring that goes round as `c` does. -/
def ring (c : Round α) : Ring := c.mark.ring c.items.length

/-- Write the ring and its list. -/
def put (self : Field σ Ring) (list : Field σ (List α)) (c : Round α) (s : σ) : σ :=
  self.set c.ring (list.set c.items s)

/-- The list and the ring are those of a valid round. -/
structure Shown (part : Field σ Ring) (list : Field σ (List α)) (c : Round α) (s : σ) : Prop where
  list_get : list.get s = c.items
  ring_get : part.get s = c.ring
  valid : c.Valid

variable {self : Field σ Ring} {list : Field σ (List α)} {s : σ} {c : Round α}

theorem Mark.expected_ring (n : Nat) (mark : Mark) : (mark.ring n).expected = n := by
  cases mark <;> rfl

theorem expected_ring (c : Round α) : c.ring.expected = c.items.length :=
  c.mark.expected_ring c.items.length

theorem last_ring_of_returned {i : Nat} (h : c.mark = .returned i) : c.ring.last = some i := by
  rw [ring, h]
  rfl

theorem last_ring_of_unreturned (h : ∀ i, c.mark ≠ .returned i) : c.ring.last = none := by
  unfold ring
  match hmark : c.mark with
  | .start | .removed _ => rfl
  | .returned i => exact absurd hmark (h i)

theorem lt_of_returned {i : Nat} (hvalid : c.Valid) (h : c.mark = .returned i) :
    i < c.items.length := by
  unfold Valid at hvalid
  rwa [h] at hvalid

/-- The position at which a ring reads next is the upcoming index. -/
theorem wrapped_ring (h : c.Valid) :
    (if c.ring.position ≥ c.ring.expected then 0 else c.ring.position) = c.upcoming := by
  unfold Valid at h
  unfold ring
  match hmark : c.mark with
  | .start =>
      rw [upcoming_of_start hmark]
      exact ite_self 0
  | .returned i =>
      rw [hmark] at h
      have hi : i < c.items.length := h
      rw [upcoming_of_returned hmark]
      show (if i + 1 ≥ c.items.length then 0 else i + 1) = (i + 1) % c.items.length
      by_cases hend : i + 1 ≥ c.items.length
      · have hlast : i + 1 = c.items.length := by omega
        rw [if_pos hend, hlast, Nat.mod_self]
      · rw [if_neg hend, Nat.mod_eq_of_lt (by omega)]
  | .removed i =>
      rw [hmark] at h
      have hi : i ≤ c.items.length := h
      rw [upcoming_of_removed hmark]
      show (if i ≥ c.items.length then 0 else i) = i % c.items.length
      by_cases hend : i ≥ c.items.length
      · have hlast : i = c.items.length := by omega
        rw [if_pos hend, hlast, Nat.mod_self]
      · rw [if_neg hend, Nat.mod_eq_of_lt (by omega)]

theorem put_self (hbeside : self.Beside list) (h : Shown self list c s) :
    put self list c s = s := by
  unfold put
  rw [← h.list_get, ← h.ring_get, hbeside.lawful_other.set_get, hbeside.lawful.set_get]

theorem put_mark (hbeside : self.Beside list) (h : Shown self list c s) (mark : Mark) :
    put self list { c with mark := mark } s = self.set (ring { c with mark := mark }) s := by
  show self.set _ (list.set c.items s) = _
  rw [← h.list_get, hbeside.lawful_other.set_get]

theorem shown_put (hbeside : self.Beside list) (h : c.Valid) :
    Shown self list c (put self list c s) where
  list_get := by
    unfold put
    rw [hbeside.apart.get_right, hbeside.lawful_other.get_set]
  ring_get := hbeside.lawful.get_set _ _
  valid := h

end Round

namespace Ring

variable {self : Field σ Ring} {list : Field σ (List α)} {s : σ} {c : Round α}

theorem check_apply (h : Round.Shown self list c s) :
    check self (.ofList list) s = .value () s := by
  show checkSize .collection (self.get s).expected (.reading fun s => (list.get s).length) s = _
  rw [h.ring_get, c.expected_ring, ← h.list_get]
  exact checkSize_of_eq rfl

theorem hasNext_apply (h : Round.Shown self list c s) :
    hasNext self (.ofList list) s = .value (!c.items.isEmpty) s := by
  have hmore : decide (c.items.length > 0) = !c.items.isEmpty := by
    cases c.items <;> rfl
  simp only [hasNext, Act.bind_apply, check_apply h, Field.read_apply, h.ring_get,
    c.expected_ring, Act.pure_apply, hmore]

theorem next_of_empty (h : Round.Shown self list c s) (hnil : c.items.length = 0) :
    next self (.ofList list) s = .failure .ended s := by
  have hzero : c.ring.expected = 0 := by rw [c.expected_ring, hnil]
  simp only [next, Act.bind_apply, check_apply h, Field.read_apply, h.ring_get, if_pos hzero,
    Act.fail_apply]

theorem next_of_lt (hbeside : self.Beside list) (h : Round.Shown self list c s)
    (hlt : c.upcoming < c.items.length) :
    next self (.ofList list) s = .value c.items[c.upcoming]
      (self.set (Round.ring { c with mark := .returned c.upcoming }) s) := by
  have hne : ¬ c.ring.expected = 0 := by rw [c.expected_ring]; omega
  simp only [next, Act.bind_apply, check_apply h, Field.read_apply, h.ring_get, if_neg hne,
    Field.modify_apply, Round.wrapped_ring h.valid, hbeside.lawful.get_set]
  -- The ring has gone round; this does not show in the list.
  have hget : ∀ r, (Sequence.ofList list).get (.plain c.upcoming) (self.set r s)
      = .value c.items[c.upcoming] (self.set r s) := by
    intro r
    apply Sequence.get_plain
    rw [hbeside.apart.get_right, h.list_get, List.getElem?_eq_getElem hlt]
  rw [hget]
  simp only [hbeside.lawful.get_set, hbeside.lawful.set_set, Act.pure_apply, c.expected_ring]
  rfl

theorem remove_of_unreturned (h : Round.Shown self list c s) (hlast : c.ring.last = none) :
    remove self (.ofList list) s = .failure (.notMoved .remove false) s := by
  simp only [remove, Act.bind_apply, check_apply h, Field.read_apply, h.ring_get, hlast,
    Act.fail_apply]

theorem remove_of_returned (hbeside : self.Beside list) (h : Round.Shown self list c s) {i : Nat}
    (hmark : c.mark = .returned i) (hi : i < c.items.length) :
    remove self (.ofList list) s = .value ()
      (Round.put self list { items := c.items.eraseIdx i, mark := .removed i } s) := by
  have hlast : c.ring.last = some i := Round.last_ring_of_returned hmark
  have hlen : (c.items.eraseIdx i).length = c.items.length - 1 := List.length_eraseIdx_of_lt hi
  rw [← h.list_get] at hi
  simp only [remove, Act.bind_apply, check_apply h, Field.read_apply, h.ring_get, hlast,
    Sequence.delete_plain hi, Field.modify_apply, hbeside.apart.get_left, c.expected_ring,
    h.list_get]
  show _ = Outcome.value () (self.set { expected := (c.items.eraseIdx i).length, position := i } _)
  rw [hlen]

/-- A call is answered by `r`, and what is written is the round `c`. -/
def Responds (self : Field σ Ring) (list : Field σ (List α)) (spin : Spin) (s : σ)
    (r : Except Failure (Answer α) × Round α) : Prop :=
  spin.ask (forward self (.ofList list)) (reset self) s = .of r.1 (r.2.put self list s)
    ∧ r.2.Valid

theorem responds_of_still (hbeside : self.Beside list) (h : Round.Shown self list c s)
    {spin : Spin} {r : Except Failure (Answer α)}
    (hask : spin.ask (forward self (.ofList list)) (reset self) s = .of r s) :
    Responds self list spin s (r, c) := by
  refine ⟨?_, h.valid⟩
  show _ = Outcome.of r (c.put self list s)
  rw [Round.put_self hbeside h, hask]

theorem responds_of_moved (hbeside : self.Beside list) (h : Round.Shown self list c s)
    {spin : Spin} {r : Except Failure (Answer α)} {mark : Round.Mark}
    (hask : spin.ask (forward self (.ofList list)) (reset self) s
      = .of r (self.set (Round.ring { c with mark := mark }) s))
    (hvalid : Round.Valid { c with mark := mark }) :
    Responds self list spin s (r, { c with mark := mark }) := by
  refine ⟨?_, hvalid⟩
  show _ = Outcome.of r (Round.put self list { c with mark := mark } s)
  rw [Round.put_mark hbeside h, hask]

/-- A ring responds as its round does. -/
theorem ask_respond (hbeside : self.Beside list) (h : Round.Shown self list c s) (spin : Spin) :
    Responds self list spin s (c.respond spin) := by
  match spin with
  | .pull .hasNext =>
      exact responds_of_still hbeside h (Pull.ask_hasNext_of (r := .ok _) (hasNext_apply h))
  | .pull .next =>
      rcases Nat.eq_zero_or_pos c.items.length with hnil | hpos
      · rw [Round.respond_next_of_empty hnil]
        exact responds_of_still hbeside h
          (Pull.ask_next_of (r := .error _) (next_of_empty h hnil))
      · rw [Round.respond_next_of_lt (Round.upcoming_lt hpos)]
        exact responds_of_moved hbeside h
          (Pull.ask_next_of (r := .ok _) (next_of_lt hbeside h (Round.upcoming_lt hpos)))
          (Round.upcoming_lt hpos)
  | .pull .remove =>
      match hmark : c.mark with
      | .returned i =>
          have hi := Round.lt_of_returned h.valid hmark
          rw [Round.respond_remove_of_returned hmark]
          refine ⟨Pull.ask_remove_of (r := .ok _) (remove_of_returned hbeside h hmark hi), ?_⟩
          show i ≤ (c.items.eraseIdx i).length
          rw [List.length_eraseIdx_of_lt hi]
          omega
      | .start | .removed _ =>
          have hne : ∀ i, c.mark ≠ .returned i := by simp [hmark]
          rw [Round.respond_remove_of_unreturned hne]
          exact responds_of_still hbeside h (Pull.ask_remove_of (r := .error _)
            (remove_of_unreturned h (Round.last_ring_of_unreturned hne)))
  | .reset =>
      have hreset : reset self s
          = .value () (self.set (Round.ring { c with mark := .start }) s) := by
        simp only [reset, Field.modify_apply, h.ring_get, c.expected_ring]
        rfl
      exact responds_of_moved hbeside h (Spin.ask_reset_of hreset) trivial

end Ring

/-! ## §4. Every run. -/

namespace Round

/-- What the calls make of the turn that lies ahead. -/
structure Turns (c : Round α) : Prop where
  /-- What is returned is the first element of the turn, and comes last in the next one. -/
  next : ∀ x, (c.respond (.pull .next)).1 = .ok (.element x) →
    ∃ rest, c.ahead = x :: rest ∧ (c.respond (.pull .next)).2.ahead = rest ++ [x]
  /-- What is removed is the last element of the turn; the others come as they would have. -/
  remove : (c.respond (.pull .remove)).1 = .ok .done →
    ∃ i rest x, c.items[i]? = some x ∧ (c.respond (.pull .remove)).2.items = c.items.eraseIdx i
      ∧ c.ahead = rest ++ [x] ∧ (c.respond (.pull .remove)).2.ahead = rest
  /-- After a reset the turn goes from the front to the back. -/
  reset : (c.respond .reset).2.ahead = c.items

/-- What holds at a moment of a run on `n` elements, of which `r` were removed. -/
structure Moment (n r : Nat) (c : Round α) (s : List α × Ring) : Prop where
  items_eq : s.1 = c.items
  length_add : c.items.length + r = n
  turns : c.Turns
  /-- As many moves as there are elements left return each of them once. -/
  answers_eq : (Ring.forward .right (.ofList .left)).answers (List.replicate (n - r) .next) s
    = some (c.ahead.map fun x => .ok (.element x))
  hasNext_eq : Ring.hasNext .right (.ofList .left) s = .value (decide (r < n)) s
  ended_iff : (∃ s', Ring.next .right (.ofList .left) s = .failure .ended s') ↔ r = n

/-- A run of calls is answered as the round says; a call that fails changes nothing. -/
def Cycles (n : Nat) : List Spin → Nat → Round α → List α × Ring → Prop
  | [], r, c, s => Moment n r c s
  | spin :: spins, r, c, s =>
      Moment n r c s
        ∧ ∃ s', spin.ask (Ring.forward .right (.ofList .left)) (Ring.reset .right) s
              = .of (c.respond spin).1 s'
            ∧ (∀ e, (c.respond spin).1 = .error e → s' = s)
            ∧ Cycles n spins (r + spin.removals (c.respond spin).1) (c.respond spin).2 s'

variable {c : Round α}

theorem turns (h : c.Valid) : c.Turns where
  next := by
    intro x hx
    rcases Nat.eq_zero_or_pos c.items.length with hnil | hpos
    · rw [respond_next_of_empty hnil] at hx
      contradiction
    · rw [respond_next_of_lt (upcoming_lt hpos)] at hx ⊢
      obtain rfl := Answer.element.inj (Except.ok.inj hx)
      exact ahead_returned (upcoming_lt hpos)
  remove := by
    intro hdone
    match hmark : c.mark with
    | .start | .removed _ =>
        rw [respond_remove_of_unreturned (by simp [hmark])] at hdone
        contradiction
    | .returned i =>
        have hi := lt_of_returned h hmark
        rw [respond_remove_of_returned hmark]
        obtain ⟨rest, hahead, hremoved⟩ := ahead_removed hmark hi
        exact ⟨i, rest, c.items[i], List.getElem?_eq_getElem hi, rfl, hahead, hremoved⟩
  reset := List.rotate_zero c.items

/-- A call fails only at the end or where there is nothing to remove, and leads nowhere then. -/
theorem respond_of_error {spin : Spin} {e : Failure} (h : (c.respond spin).1 = .error e) :
    (e = .ended ∨ e = .notMoved .remove false) ∧ (c.respond spin).2 = c := by
  match spin with
  | .pull .hasNext | .reset => contradiction
  | .pull .next =>
      rcases Nat.eq_zero_or_pos c.items.length with hnil | hpos
      · rw [respond_next_of_empty hnil] at h ⊢
        exact ⟨.inl (Except.error.inj h).symm, rfl⟩
      · rw [respond_next_of_lt (upcoming_lt hpos)] at h
        contradiction
  | .pull .remove =>
      match hmark : c.mark with
      | .start | .removed _ =>
          rw [respond_remove_of_unreturned (by simp [hmark])] at h ⊢
          exact ⟨.inr (Except.error.inj h).symm, rfl⟩
      | .returned i =>
          rw [respond_remove_of_returned hmark] at h
          contradiction

/-- The elements are as many fewer as were removed. -/
theorem length_respond (h : c.Valid) (spin : Spin) :
    (c.respond spin).2.items.length + spin.removals (c.respond spin).1 = c.items.length := by
  match spin with
  | .pull .hasNext | .reset => rfl
  | .pull .next =>
      rcases Nat.eq_zero_or_pos c.items.length with hnil | hpos
      · rw [respond_next_of_empty hnil]
        rfl
      · rw [respond_next_of_lt (upcoming_lt hpos)]
        rfl
  | .pull .remove =>
      match hmark : c.mark with
      | .start | .removed _ =>
          rw [respond_remove_of_unreturned (by simp [hmark])]
          rfl
      | .returned i =>
          have hi := lt_of_returned h hmark
          rw [respond_remove_of_returned hmark]
          show (c.items.eraseIdx i).length + 1 = c.items.length
          rw [List.length_eraseIdx_of_lt hi]
          omega

variable {self : Field σ Ring} {list : Field σ (List α)} {s : σ}

/-- Moves return the elements of the turn, one after the other. -/
theorem answers_next (hbeside : self.Beside list) (h : Shown self list c s) {k : Nat}
    (hk : k ≤ c.items.length) :
    (Ring.forward self (.ofList list)).answers (List.replicate k .next) s
      = some ((c.ahead.take k).map fun x => .ok (.element x)) := by
  -- The induction is on the moves; each takes the first element of the turn to its end.
  induction k generalizing c s with
  | zero => rfl
  | succ k ih =>
      have hpos : 0 < c.items.length := by omega
      obtain ⟨rest, hahead, hnext⟩ := ahead_returned (upcoming_lt hpos)
      have hlen : rest.length + 1 = c.items.length := by
        rw [← length_ahead c, hahead, List.length_cons]
      have hcall : Merge.Draw.next.ask (Ring.forward self (.ofList list)) s = .value _ _ :=
        Act.map_of (r := .ok _) Answer.element (Ring.next_of_lt hbeside h (upcoming_lt hpos))
      have h' : Shown self list { c with mark := .returned c.upcoming }
          (self.set (ring { c with mark := .returned c.upcoming }) s) := by
        rw [← put_mark hbeside h]
        exact shown_put hbeside (upcoming_lt hpos)
      rw [List.replicate_succ, answers_of_value hcall, ih h' (Nat.le_of_succ_le hk), hnext, hahead,
        List.take_append_of_le_length (by omega)]
      rfl

theorem moment_of_shown {s : List α × Ring} {n r : Nat} (h : Shown .right .left c s)
    (hlen : c.items.length + r = n) : Moment n r c s where
  items_eq := h.list_get
  length_add := hlen
  turns := turns h.valid
  answers_eq := by
    have hleft : n - r = c.items.length := by omega
    rw [hleft, answers_next Field.right_beside_left h (Nat.le_refl _), ← length_ahead c,
      List.take_length]
  hasNext_eq := by
    rw [Ring.hasNext_apply h]
    congr 1
    rw [Bool.eq_iff_iff, Bool.not_eq_true', List.isEmpty_eq_false_iff, ← List.length_pos_iff,
      decide_eq_true_iff]
    omega
  ended_iff := by
    rcases Nat.eq_zero_or_pos c.items.length with hnil | hpos
    · exact ⟨fun _ => by omega, fun _ => ⟨s, Ring.next_of_empty h hnil⟩⟩
    · refine ⟨?_, fun _ => by omega⟩
      intro hended
      obtain ⟨s', hs'⟩ := hended
      rw [Ring.next_of_lt Field.right_beside_left h (upcoming_lt hpos)] at hs'
      contradiction

theorem cycles_of_shown {s : List α × Ring} {n r : Nat} {spins : List Spin}
    (h : Shown .right .left c s) (hlen : c.items.length + r = n) : Cycles n spins r c s := by
  -- The induction is on the calls; what is removed is counted where it is no longer held.
  induction spins generalizing c s r with
  | nil => exact moment_of_shown h hlen
  | cons spin spins ih =>
      obtain ⟨hask, hvalid⟩ := Ring.ask_respond Field.right_beside_left h spin
      have hless := length_respond h.valid spin
      refine ⟨moment_of_shown h hlen, _, hask, ?_, ?_⟩
      · intro e he
        rw [(respond_of_error he).2, put_self Field.right_beside_left h]
      · exact ih (shown_put Field.right_beside_left hvalid) (by omega)

/-- **A new ring goes round all that is left.** -/
theorem cycles_all_left (xs : List α) (spins : List Spin) :
    Cycles xs.length spins 0 { items := xs } (xs, { expected := xs.length }) :=
  cycles_of_shown ⟨rfl, rfl, trivial⟩ rfl

/-- After the element at the back was removed, the ring goes on at the front. -/
example :
    (Ring.forward .right (.ofList .left)).answers [.next, .hasNext, .next, .next]
        (([1, 2], { expected := 2, position := 2 }) : List Nat × Ring)
      = some [.ok (.element 1), .ok (.truth true), .ok (.element 2), .ok (.element 1)] := by
  decide

end Round

end Cursors
