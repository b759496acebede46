/-
  Cursors.Proofs.Chain.Leaf
  ─────────────────────────
  **SOURCES THAT KEEP TO A TALLY.**

  A source keeps to tallies (`Tallied`) if each call answers as the tally
  that it shows says, shows the tally that this leads to, and if the lists
  below it hold what the tally says is left of them.  Of a removal this is
  asked only where there is something to remove: what a source refuses with
  otherwise is its own affair.

  A cursor at the front of a list keeps to the tally of that list.
-/
import Cursors.Proofs.Chain.Tally
import Cursors.Proofs.Cursor

namespace Cursors

variable {σ α : Type}

/-! ## §1. Keeping to a tally. -/

/-- The source does what the tallies that it shows say. -/
structure Tallied (source : Forward σ α) (lists : σ → List (List α))
    (Shows : σ → Tally α → Prop) : Prop where
  lists_eq : ∀ {s t}, Shows s t → lists s = t.left
  given_le : ∀ {s t}, Shows s t → t.given ≤ t.size
  given_pos : ∀ {s t}, Shows s t → t.held = true → 0 < t.given
  hasNext : ∀ {s t}, Shows s t →
    ∃ s', source.hasNext s = .value (decide (t.given < t.size)) s' ∧ Shows s' t
  next_some : ∀ {s t x}, Shows s t → t.coming = some x →
    ∃ s', source.next s = .value x s' ∧ Shows s' t.passed
  next_none : ∀ {s t}, Shows s t → t.coming = none →
    ∃ s', source.next s = .failure .ended s' ∧ Shows s' t
  remove : ∀ {s t}, Shows s t → t.held = true →
    ∃ s', source.remove s = .value () s' ∧ Shows s' t.cleared

/-! ## §2. A cursor in a list. -/

namespace Tally

/-- The zipper of a list of which the elements in `past` were handed out. -/
def zipper (past ahead : List (Entry α)) (held : Bool) : Zipper α where
  back := (Entry.left past).reverse
  front := ahead.map Entry.item
  crossed := if held then some .forward else none

/-- The cursor stands behind the elements that were handed out, and can remove the last of them
just if the tally says so. -/
structure Leaf (bound : Nat) (past ahead : List (Entry α)) (s : Cursor × List α) (t : Tally α) :
    Prop where
  rows_eq : t.rows = [past ++ ahead]
  given_eq : t.given = past.length
  present : ∀ e ∈ ahead, e.removed = false
  last : t.held = true → ∃ before e, past = before ++ [e] ∧ e.removed = false
  items_eq : s.2 = (zipper past ahead t.held).items
  spans : s.1.Spans bound (zipper past ahead t.held)

variable {bound : Nat} {past ahead : List (Entry α)} {s : Cursor × List α} {t : Tally α}

theorem Leaf.list_get (h : Leaf bound past ahead s t) :
    (Field.right : Field (Cursor × List α) (List α)).get s = (zipper past ahead t.held).items :=
  h.items_eq

theorem Leaf.here_get (h : Leaf bound past ahead s t) :
    ((Field.left : Field (Cursor × List α) Cursor).get s).Spans bound
      (zipper past ahead t.held) :=
  h.spans

theorem Leaf.size_eq (h : Leaf bound past ahead s t) : t.size = past.length + ahead.length := by
  rw [size, h.rows_eq, List.flatten_cons, List.flatten_nil, List.append_nil, List.length_append]

theorem Leaf.coming_eq (h : Leaf bound past ahead s t) :
    t.coming = ahead.head?.map Entry.item := by
  rw [coming, h.rows_eq, h.given_eq, List.flatten_cons, List.flatten_nil, List.append_nil,
    List.getElem?_append_right (Nat.le_refl _), Nat.sub_self, List.head?_eq_getElem?]

theorem Leaf.left_eq (h : Leaf bound past ahead s t) : [s.2] = t.left := by
  rw [left, h.rows_eq, List.map_singleton, Entry.left_append, Entry.left_of_present h.present,
    h.items_eq, Zipper.items, zipper, List.reverse_reverse]

theorem Leaf.passed {e : Entry α} {rest : List (Entry α)}
    (h : Leaf bound past (e :: rest) s t) :
    ∃ s', Cursor.next .left (.ofList .right) s = .value e.item s'
      ∧ Leaf bound (past ++ [e]) rest s' t.passed := by
  have he : e.removed = false := h.present e List.mem_cons_self
  have hzipper : (zipper past (e :: rest) t.held).cross .forward 1
      = zipper (past ++ [e]) rest true := by
    have hone : Entry.left [e] = [e.item] := Entry.left_of_present (by simpa using he)
    show _ = Zipper.mk (Entry.left (past ++ [e])).reverse (rest.map Entry.item) (some .forward)
    rw [Entry.left_append, hone, List.reverse_append]
    rfl
  obtain ⟨c, hnext, hspans⟩ := Cursor.next_of_front h.list_get h.here_get rfl
  rw [hzipper] at hspans
  refine ⟨_, hnext, ?_, ?_, fun x hx => h.present x (List.mem_cons_of_mem e hx), ?_, ?_, hspans⟩
  · rw [List.append_assoc]
    exact h.rows_eq
  · rw [List.length_append]
    exact congrArg (· + 1) h.given_eq
  · exact fun _ => ⟨past, e, rfl, he⟩
  · have hsame := Zipper.items_cross (zipper past (e :: rest) t.held) .forward 1
    rw [hzipper] at hsame
    exact h.items_eq.trans hsame.symm

theorem Leaf.cleared {before : List (Entry α)} {e : Entry α}
    (h : Leaf bound (before ++ [e]) ahead s t) (hheld : t.held = true)
    (he : e.removed = false) :
    ∃ s', Cursor.remove .left (.ofList .right) s = .value () s'
      ∧ Leaf bound (before ++ [e.gone]) ahead s' t.cleared := by
  have hzipper : zipper (before ++ [e]) ahead t.held
      = ⟨e.item :: (Entry.left before).reverse, ahead.map Entry.item, some .forward⟩ := by
    have hone : Entry.left [e] = [e.item] := Entry.left_of_present (by simpa using he)
    rw [zipper, Entry.left_append, hone, List.reverse_append, hheld]
    rfl
  have hremoved : (zipper (before ++ [e]) ahead t.held).removed
      = zipper (before ++ [e.gone]) ahead false := by
    have hnone : Entry.left [e.gone] = [] := rfl
    rw [hzipper, zipper, Entry.left_append, hnone, List.append_nil]
    rfl
  have htouched : (zipper (before ++ [e]) ahead t.held).touched
      = some (Entry.left before).reverse.length := by
    rw [hzipper]
    rfl
  obtain ⟨c, hremove, hspans⟩ := Cursor.remove_of_touched
    ⟨fun _ _ => rfl, fun _ _ => rfl⟩ h.list_get h.here_get htouched
  rw [hremoved] at hspans
  refine ⟨_, hremove, ?_, ?_, h.present, nofun, ?_, hspans⟩
  · have hgiven : t.given - 1 = before.length := by
      rw [h.given_eq, List.length_append]
      rfl
    have hlt : before.length < (before ++ [e] ++ ahead).length := by
      simp only [List.length_append, List.length_singleton]
      omega
    show Entry.mark (t.given - 1) t.rows = _
    rw [hgiven, h.rows_eq, Entry.mark, if_pos hlt, List.append_assoc, List.append_assoc]
    exact congrArg (· :: []) (Entry.modify_append before e ahead)
  · rw [List.length_append, List.length_singleton, ← List.length_singleton (a := e),
      ← List.length_append]
    exact h.given_eq
  · rw [show t.cleared.held = false from rfl, ← hremoved, Zipper.items_removed htouched]
    rfl

end Tally

/-- A cursor at the front of a list keeps to the tally of that list. -/
theorem tallied_cursor :
    Tallied (Cursor.twoWay .left (.ofList .right) : TwoWay (Cursor × List α) α).toForward
      (fun s => [s.2]) fun s t => ∃ bound past ahead, Tally.Leaf bound past ahead s t where
  lists_eq := by
    rintro s t ⟨bound, past, ahead, h⟩
    exact h.left_eq
  given_le := by
    rintro s t ⟨bound, past, ahead, h⟩
    rw [h.size_eq, h.given_eq]
    exact Nat.le_add_right _ _
  given_pos := by
    rintro s t ⟨bound, past, ahead, h⟩ hheld
    obtain ⟨before, e, rfl, -⟩ := h.last hheld
    rw [h.given_eq, List.length_append]
    exact Nat.succ_pos _
  hasNext := by
    rintro s t ⟨bound, past, ahead, h⟩
    refine ⟨s, ?_, bound, past, ahead, h⟩
    have hmore := Cursor.hasMore_apply h.list_get h.here_get .forward
    refine hmore.trans ?_
    rw [h.size_eq, h.given_eq]
    cases ahead <;> simp [Zipper.toward, Tally.zipper]
  next_some := by
    rintro s t x ⟨bound, past, ahead, h⟩ hx
    rw [h.coming_eq] at hx
    cases ahead with
    | nil => cases hx
    | cons e rest =>
        obtain rfl := Option.some.inj hx
        obtain ⟨s', hnext, h'⟩ := h.passed
        exact ⟨s', hnext, bound, _, _, h'⟩
  next_none := by
    rintro s t ⟨bound, past, ahead, h⟩ hnone
    rw [h.coming_eq] at hnone
    cases ahead with
    | nil =>
        have hnext : (Cursor.twoWay .left (.ofList .right)).step .forward s = .failure .ended s :=
          Cursor.step_of_toward_nil h.list_get h.here_get rfl
        exact ⟨s, hnext, bound, past, [], h⟩
    | cons e rest => cases hnone
  remove := by
    rintro s t ⟨bound, past, ahead, h⟩ hheld
    obtain ⟨before, e, rfl, he⟩ := h.last hheld
    obtain ⟨s', hremove, h'⟩ := h.cleared hheld he
    exact ⟨s', hremove, bound, _, _, h'⟩

/-- A new cursor shows the tally of which the elements behind it were handed out. -/
theorem Tally.leaf_at (behind ahead : List α) :
    Tally.Leaf (behind ++ ahead).length (behind.map ({ item := · })) (ahead.map ({ item := · }))
      ({ position := .plain behind.length }, behind ++ ahead)
      { rows := [(behind ++ ahead).map ({ item := · })], given := behind.length } := by
  have hpresent : ∀ xs : List α, ∀ e ∈ xs.map ({ item := · } : α → Entry α), e.removed = false := by
    intro xs e he
    obtain ⟨x, -, rfl⟩ := List.mem_map.mp he
    rfl
  have hitems : ∀ xs : List α, (xs.map ({ item := · } : α → Entry α)).map Entry.item = xs := by
    intro xs
    rw [List.map_map]
    exact List.map_id xs
  have hzipper : zipper (behind.map ({ item := · })) (ahead.map ({ item := · })) false
      = Zipper.ofList (behind ++ ahead) behind.length := by
    rw [zipper, Entry.left_of_present (hpresent behind), hitems, hitems, Zipper.ofList,
      List.take_left, List.drop_left]
    rfl
  have hlength : behind.length ≤ (behind ++ ahead).length := by
    rw [List.length_append]
    exact Nat.le_add_right _ _
  refine ⟨congrArg (· :: []) List.map_append, (List.length_map _).symm, hpresent ahead,
    fun hheld => absurd hheld Bool.false_ne_true, ?_, ?_⟩
  · rw [show (Tally.mk _ behind.length false : Tally α).held = false from rfl, hzipper,
      Zipper.items_ofList]
  · rw [show (Tally.mk _ behind.length false : Tally α).held = false from rfl, hzipper]
    exact Cursor.spans_ofList (Place.standsAt_plain hlength) hlength (Nat.le_refl _)

/-- A new cursor shows the tally of which nothing was handed out. -/
theorem Tally.leaf_start (xs : List α) :
    Tally.Leaf xs.length [] (xs.map ({ item := · })) ({}, xs) (.start [xs]) :=
  leaf_at [] xs

end Cursors
