/-
  Cursors.Proofs.Merge.Stock
  ──────────────────────────
  **WHAT A MERGE OF LISTS OWES ITS CALLER.**

  A docket keeps the lists of a merge as they were at the start, marks what
  has been removed and counts what was given of each list:

      next      gives the element that a pass over the lists picks
      remove    marks the element given last, if that was not removed

  Nothing is held ahead in a docket.  A stock is a docket together with what
  a merge holds ahead: the lists of which the next element lies in a slot
  already, and the cursors that can still remove the element they crossed
  last.  A pass reads ahead, and what it has read stays read if a comparison
  fails; with a comparator that never fails the two come to the same.

  The comparator is given the number of its call, so that it need not be
  consistent.
-/
import Mathlib.Logic.Function.Basic
import Mathlib.Data.List.FinRange
import Cursors.Combinator.Merge
import Cursors.Proofs.Chain.Tally
import Cursors.Proofs.Machine

namespace Cursors.Merge

variable {N : Nat} {α β : Type}

/-! ## §1. Dockets. -/

/-- An element of a list stands between those before it and those behind it. -/
theorem split_of_getElem? {row : List β} {k : Nat} {e : β} (h : row[k]? = some e) :
    row = row.take k ++ e :: row.drop (k + 1) ∧ (row.take k).length = k := by
  obtain ⟨hlt, rfl⟩ := List.getElem?_eq_some_iff.mp h
  constructor
  · rw [List.getElem_cons_drop]
    exact (List.take_append_drop k row).symm
  · rw [List.length_take, Nat.min_eq_left hlt.le]

/-- A list and a cursor in it, which may have crossed an element before. -/
structure Reader (α : Type) where
  behind : List α := []
  ahead : List α
  crossed : Option Place := none
  deriving Repr, DecidableEq

/-- The elements of the list. -/
def Reader.items (r : Reader α) : List α := r.behind ++ r.ahead

/-- The lists of a merge with their marks, the number of elements before the next one of each, the
list of the element given last, the same as long as that was not removed, and the number of
comparisons. -/
structure Docket (N : Nat) (α : Type) where
  rows : Fin N → List (Entry α)
  given : Fin N → Nat
  last : Option (Fin N) := none
  due : Option (Fin N) := none
  calls : Nat := 0

namespace Docket

/-- Nothing has been given. -/
def start (readers : Fin N → Reader α) : Docket N α where
  rows i := (readers i).items.map ({ item := · })
  given i := (readers i).behind.length

/-- The next element of the `i`-th list. -/
def coming (d : Docket N α) (i : Fin N) : Option α := (d.rows i)[d.given i]?.map Entry.item

/-- What is left of the `i`-th list. -/
def left (d : Docket N α) (i : Fin N) : List α := Entry.left (d.rows i)

/-- The comparator was called. -/
def counted (d : Docket N α) : Docket N α := { d with calls := d.calls + 1 }

/-- The next element of the `i`-th list was given. -/
def passed (d : Docket N α) (i : Fin N) : Docket N α :=
  { d with given := Function.update d.given i (d.given i + 1), last := some i, due := some i }

/-- The `k`-th element of the `i`-th list was removed. -/
def struck (d : Docket N α) (i : Fin N) (k : Nat) : Docket N α :=
  { d with rows := Function.update d.rows i ((d.rows i).modify k Entry.gone), due := none }

/-- The least among `best` and the next elements of the named lists, and the docket with the
comparisons counted. -/
def pick (precedes : Nat → α → α → Bool) :
    List (Fin N) → Option (Fin N × α) → Docket N α → Option (Fin N × α) × Docket N α
  | [], best, d => (best, d)
  | i :: names, best, d =>
      match d.coming i, best with
      | none, _ => pick precedes names best d
      | some x, none => pick precedes names (some (i, x)) d
      | some x, some least =>
          pick precedes names (if precedes d.calls x least.2 then some (i, x) else some least)
            d.counted

/-- What a call comes to, and where it leads. -/
def respond (precedes : Nat → α → α → Bool) :
    Pull → Docket N α → Except Failure (Answer α) × Docket N α
  | .hasNext, d => (.ok (.truth ((List.finRange N).any fun i => (d.coming i).isSome)), d)
  | .next, d =>
      match d.pick precedes (List.finRange N) none with
      | (none, d') => (.error .ended, d')
      | (some (i, x), d') => (.ok (.element x), d'.passed i)
  | .remove, d =>
      match d.due with
      | none => (.error (.notMoved .remove false), d)
      | some i => (.ok .done, d.struck i (d.given i - 1))

/-- The lists as they are, and the number of the one that gave the last element. -/
def look (d : Docket N α) : (Fin N → List α) × Option Nat := (d.left, d.last.map Fin.val)

/-- What calls come to, one after the other, and how they leave the lists. -/
def report (precedes : Nat → α → α → Bool) (calls : List Pull) (d : Docket N α) :
    List (Except Failure (Answer α) × (Fin N → List α) × Option Nat) :=
  replies (respond precedes) look calls d

variable {d d' : Docket N α} {i j : Fin N}

theorem respond_next_of_none {precedes : Nat → α → α → Bool}
    (h : (d.pick precedes (List.finRange N) none).1 = none) :
    respond precedes .next d = (.error .ended, (d.pick precedes (List.finRange N) none).2) := by
  rw [respond, ← Prod.eta (d.pick precedes (List.finRange N) none), h]

theorem respond_next_of_some {precedes : Nat → α → α → Bool} {x : α}
    (h : (d.pick precedes (List.finRange N) none).1 = some (i, x)) :
    respond precedes .next d
      = (.ok (.element x), (d.pick precedes (List.finRange N) none).2.passed i) := by
  rw [respond, ← Prod.eta (d.pick precedes (List.finRange N) none), h]

theorem respond_remove_of_none {precedes : Nat → α → α → Bool} (h : d.due = none) :
    respond precedes .remove d = (.error (.notMoved .remove false), d) := by
  simp only [respond, h]

theorem respond_remove_of_due {precedes : Nat → α → α → Bool} (h : d.due = some i) :
    respond precedes .remove d = (.ok .done, d.struck i (d.given i - 1)) := by
  simp only [respond, h]

theorem given_passed_self (d : Docket N α) (i : Fin N) : (d.passed i).given i = d.given i + 1 :=
  Function.update_self i _ d.given

theorem given_passed_ne (d : Docket N α) (h : j ≠ i) : (d.passed i).given j = d.given j :=
  Function.update_of_ne h _ d.given

theorem rows_struck_self (d : Docket N α) (i : Fin N) (k : Nat) :
    (d.struck i k).rows i = (d.rows i).modify k Entry.gone :=
  Function.update_self i _ d.rows

theorem rows_struck_ne (d : Docket N α) (k : Nat) (h : j ≠ i) :
    (d.struck i k).rows j = d.rows j :=
  Function.update_of_ne h _ d.rows

theorem coming_passed_ne (d : Docket N α) (h : j ≠ i) : (d.passed i).coming j = d.coming j := by
  show (d.rows j)[(d.passed i).given j]?.map Entry.item = _
  rw [given_passed_ne d h]
  rfl

/-- A mark does not change which elements there are. -/
theorem map_item_struck (d : Docket N α) (i : Fin N) (k : Nat) (j : Fin N) :
    ((d.struck i k).rows j).map Entry.item = (d.rows j).map Entry.item := by
  by_cases hji : j = i
  · subst hji
    rw [rows_struck_self]
    exact Entry.map_item_modify k (d.rows j)
  · rw [rows_struck_ne d k hji]

theorem coming_eq (d : Docket N α) (i : Fin N) :
    d.coming i = ((d.rows i).map Entry.item)[d.given i]? :=
  List.getElem?_map.symm

theorem coming_struck (d : Docket N α) (i : Fin N) (k : Nat) (j : Fin N) :
    (d.struck i k).coming j = d.coming j := by
  rw [coming_eq, coming_eq, map_item_struck]
  rfl

/-! ### Removals do not show in what is given. -/

/-- Two dockets that differ in their marks alone. -/
structure Alike (d d' : Docket N α) : Prop where
  given_eq : d.given = d'.given
  calls_eq : d.calls = d'.calls
  items_eq : ∀ i, (d.rows i).map Entry.item = (d'.rows i).map Entry.item

theorem Alike.coming_eq (h : Alike d d') (i : Fin N) : d.coming i = d'.coming i := by
  rw [Docket.coming_eq, Docket.coming_eq, h.items_eq, h.given_eq]

theorem Alike.counted (h : Alike d d') : Alike d.counted d'.counted :=
  ⟨h.given_eq, congrArg (· + 1) h.calls_eq, h.items_eq⟩

theorem Alike.passed (h : Alike d d') (i : Fin N) : Alike (d.passed i) (d'.passed i) := by
  refine ⟨?_, h.calls_eq, h.items_eq⟩
  show Function.update d.given i (d.given i + 1) = Function.update d'.given i (d'.given i + 1)
  rw [h.given_eq]

theorem Alike.struck (h : Alike d d') (i : Fin N) (k : Nat) : Alike (d.struck i k) d' := by
  refine ⟨h.given_eq, h.calls_eq, fun j => ?_⟩
  rw [map_item_struck]
  exact h.items_eq j

theorem Alike.pick (h : Alike d d') (precedes : Nat → α → α → Bool) (names : List (Fin N))
    (best : Option (Fin N × α)) :
    (d.pick precedes names best).1 = (d'.pick precedes names best).1
      ∧ Alike (d.pick precedes names best).2 (d'.pick precedes names best).2 := by
  induction names generalizing d d' best with
  | nil => exact ⟨rfl, h⟩
  | cons i names ih =>
      unfold Docket.pick
      rw [h.coming_eq i, h.calls_eq]
      split
      · exact ih h _
      · exact ih h _
      · exact ih h.counted _

/-- Elements come out as they do without the removals. -/
theorem Alike.elements_report (h : Alike d d') (precedes : Nat → α → α → Bool)
    (calls : List Pull) :
    Tally.elements (d.report precedes calls)
      = Tally.elements (d'.report precedes (calls.filter (· ≠ .remove))) := by
  induction calls generalizing d d' with
  | nil => rfl
  | cons call calls ih =>
      cases call with
      | hasNext => exact ih h
      | next =>
          obtain ⟨hfound, hafter⟩ := h.pick precedes (List.finRange N) none
          cases hpick : (d'.pick precedes (List.finRange N) none).1 with
          | none =>
              have hleft := respond_next_of_none (hfound.trans hpick)
              have hright := respond_next_of_none hpick
              show Tally.elements (replies _ _ _ _) = Tally.elements (replies _ _ _ _)
              rw [List.filter_cons_of_pos rfl, replies, replies, hleft, hright]
              exact ih hafter
          | some found =>
              have hleft := respond_next_of_some (hfound.trans hpick)
              have hright := respond_next_of_some hpick
              show Tally.elements (replies _ _ _ _) = Tally.elements (replies _ _ _ _)
              rw [List.filter_cons_of_pos rfl, replies, replies, hleft, hright]
              exact congrArg (found.2 :: ·) (ih (hafter.passed found.1))
      | remove =>
          show Tally.elements (replies _ _ _ _) = Tally.elements (replies _ _ _ _)
          rw [List.filter_cons_of_neg (by decide), replies]
          cases hdue : d.due with
          | none =>
              rw [respond_remove_of_none hdue]
              exact ih h
          | some i =>
              rw [respond_remove_of_due hdue]
              exact ih (h.struck i _)

/-! ### What was given last. -/

/-- The element given last, as long as it was not removed, by the answers alone. -/
def outstanding (x : Option α) : Except Failure (Answer α) → Option α
  | .ok (.element y) => some y
  | .ok .done => none
  | _ => x

/-- The element given last over several calls. -/
def outstandingAfter (x : Option α) (report : List (Except Failure (Answer α) × β)) : Option α :=
  report.foldl (fun x seen => outstanding x seen.1) x

/-- A removal takes the element `x` given last away from the list that gave it, and touches nothing
else; it is refused and changes nothing if there is no such element. -/
def RemovesLast (precedes : Nat → α → α → Bool) (d : Docket N α) : Option α → Prop
  | none => respond precedes .remove d = (.error (.notMoved .remove false), d)
  | some x => ∃ i before after, d.last = some i
      ∧ d.rows i = before ++ { item := x } :: after ∧ d.given i = before.length + 1
      ∧ respond precedes .remove d = (.ok .done,
          { d with
            rows := Function.update d.rows i (before ++ { item := x, removed := true } :: after)
            due := none })

/-- Nothing is missing of what was not given, and the element given last is the one due. -/
structure Recalls (d : Docket N α) (x : Option α) : Prop where
  present : ∀ i k e, d.given i ≤ k → (d.rows i)[k]? = some e → e.removed = false
  of_none : d.due = none → x = none
  of_some : ∀ i, d.due = some i → ∃ y before after, x = some y ∧ d.last = some i
    ∧ d.rows i = before ++ { item := y } :: after ∧ d.given i = before.length + 1

/-- A pass counts comparisons and does nothing else. -/
theorem pick_snd (precedes : Nat → α → α → Bool) (names : List (Fin N))
    (best : Option (Fin N × α)) (d : Docket N α) :
    ∃ calls, (d.pick precedes names best).2 = { d with calls := calls } := by
  induction names generalizing best d with
  | nil => exact ⟨d.calls, rfl⟩
  | cons i names ih =>
      unfold Docket.pick
      split
      · exact ih _ d
      · exact ih _ d
      · exact ih _ d.counted

/-- What is picked comes next in its list, unless it was the best before. -/
theorem coming_of_pick {precedes : Nat → α → α → Bool} {names : List (Fin N)}
    {best : Option (Fin N × α)} {found : Fin N × α}
    (h : (d.pick precedes names best).1 = some found) :
    best = some found ∨ d.coming found.1 = some found.2 := by
  induction names generalizing best d with
  | nil => exact .inl h
  | cons i names ih =>
      unfold Docket.pick at h
      cases hcoming : d.coming i with
      | none =>
          simp only [hcoming] at h
          exact ih h
      | some x =>
          have hself : ∀ {best : Option (Fin N × α)}, best = some (i, x) →
              best = some found → d.coming found.1 = some found.2 := by
            rintro best rfl hfound
            obtain rfl := Option.some.inj hfound
            exact hcoming
          cases best with
          | none =>
              simp only [hcoming] at h
              exact .inr ((ih h).elim (hself rfl) id)
          | some least =>
              simp only [hcoming] at h
              obtain hbest | hfound := ih h
              · split at hbest
                · exact .inr (hself rfl hbest)
                · exact .inl hbest
              · exact .inr hfound

theorem Recalls.counted {o : Option α} (h : Recalls d o) (calls : Nat) :
    Recalls { d with calls := calls } o :=
  ⟨h.present, h.of_none, h.of_some⟩

theorem Recalls.passed {o : Option α} (h : Recalls d o) {x : α} (hx : d.coming i = some x) :
    Recalls (d.passed i) (some x) := by
  obtain ⟨e, he, rfl⟩ := Option.map_eq_some_iff.mp hx
  refine ⟨fun j k e' hk he' => h.present j k e' ?_ he', nofun, fun j hj => ?_⟩
  · by_cases hji : j = i
    · subst hji
      rw [given_passed_self] at hk
      omega
    · rwa [given_passed_ne d hji] at hk
  · obtain rfl : i = j := Option.some.inj hj
    obtain ⟨hrow, hlength⟩ := split_of_getElem? he
    have hpresent := h.present i (d.given i) e (Nat.le_refl _) he
    refine ⟨e.item, (d.rows i).take (d.given i), (d.rows i).drop (d.given i + 1), rfl, rfl, ?_, ?_⟩
    · rw [show ({ item := e.item } : Entry α) = e by rw [← hpresent]]
      exact hrow
    · rw [given_passed_self, hlength]

theorem Recalls.struck {o : Option α} (h : Recalls d o) (hdue : d.due = some i) :
    Recalls (d.struck i (d.given i - 1)) none := by
  refine ⟨fun j k e hk he => h.present j k e hk ?_, fun _ => rfl, nofun⟩
  rw [← he]
  by_cases hji : j = i
  · subst hji
    obtain ⟨y, before, after, -, -, -, hgiven⟩ := h.of_some j hdue
    have hle : d.given j ≤ k := hk
    rw [rows_struck_self, List.getElem?_modify_ne _ _ (by omega)]
  · rw [rows_struck_ne d _ hji]

theorem Recalls.respond {o : Option α} (h : Recalls d o) (precedes : Nat → α → α → Bool)
    (call : Pull) :
    Recalls (Docket.respond precedes call d).2
      (outstanding o (Docket.respond precedes call d).1) := by
  cases call with
  | hasNext => exact h
  | next =>
      obtain ⟨calls, hcalls⟩ := pick_snd precedes (List.finRange N) none d
      have hpicked := h.counted calls
      cases hpick : (d.pick precedes (List.finRange N) none).1 with
      | none =>
          rw [respond_next_of_none hpick, hcalls]
          exact hpicked
      | some found =>
          rw [respond_next_of_some hpick, hcalls]
          exact hpicked.passed ((coming_of_pick hpick).elim nofun id)
  | remove =>
      cases hdue : d.due with
      | none =>
          rw [respond_remove_of_none hdue]
          exact h
      | some i =>
          rw [respond_remove_of_due hdue]
          exact h.struck hdue

theorem recalls_start (readers : Fin N → Reader α) : Recalls (start readers) none where
  present i k e _ he := by
    obtain ⟨x, -, rfl⟩ := List.mem_map.mp (List.mem_of_getElem? he)
    rfl
  of_none _ := rfl
  of_some := nofun

theorem Recalls.led {o : Option α} (h : Recalls d o) (precedes : Nat → α → α → Bool)
    (calls : List Pull) :
    Recalls (Cursors.led (Docket.respond precedes) calls d)
      (outstandingAfter o (d.report precedes calls)) := by
  induction calls generalizing d o with
  | nil => exact h
  | cons call calls ih => exact ih (h.respond precedes call)

theorem Recalls.removesLast {o : Option α} (h : Recalls d o) (precedes : Nat → α → α → Bool) :
    d.RemovesLast precedes o := by
  cases hdue : d.due with
  | none =>
      rw [h.of_none hdue]
      exact respond_remove_of_none hdue
  | some i =>
      obtain ⟨y, before, after, rfl, hlast, hrow, hgiven⟩ := h.of_some i hdue
      refine ⟨i, before, after, hlast, hrow, hgiven, ?_⟩
      rw [respond_remove_of_due hdue, Docket.struck, hgiven, Nat.add_sub_cancel, hrow,
        Entry.modify_append]
      rfl

end Docket

/-! ## §2. Stocks. -/

/-- A docket with what is held ahead: the lists of which the next element lies in a slot, and
those of which the cursor can remove the element that it crossed last. -/
structure Stock (N : Nat) (α : Type) extends Docket N α where
  ahead : Fin N → Bool := fun _ => false
  loose : Fin N → Bool := fun _ => false

namespace Stock

/-- Nothing has been given or read ahead. -/
def start (readers : Fin N → Reader α) : Stock N α where
  toDocket := .start readers

/-- What the `i`-th slot holds. -/
def slot (t : Stock N α) (i : Fin N) : Option α := if t.ahead i then t.coming i else none

/-- The number of elements of the `i`-th list behind its cursor, with those that were removed. -/
def taken (t : Stock N α) (i : Fin N) : Nat := t.given i + (t.ahead i).toNat

/-- The state of the merge. -/
def merge (t : Stock N α) : Merge α where
  slots := List.ofFn t.slot
  last := t.last.map Fin.val
  removable := t.due.isSome

/-- The `i`-th slot was to be filled. -/
def fetched (t : Stock N α) (i : Fin N) : Stock N α :=
  if t.ahead i || (t.coming i).isNone then t
  else
    { t with
      ahead := Function.update t.ahead i true
      loose := Function.update t.loose i true }

/-- The comparator was called. -/
def counted (t : Stock N α) : Stock N α := { t with toDocket := t.toDocket.counted }

/-- The element in the `i`-th slot was given. -/
def passed (t : Stock N α) (i : Fin N) : Stock N α :=
  { t with toDocket := t.toDocket.passed i, ahead := Function.update t.ahead i false }

/-- The cursor in the `i`-th list has removed the element that it crossed last. -/
def struck (t : Stock N α) (i : Fin N) : Stock N α :=
  { t with
    toDocket := t.toDocket.struck i (t.taken i - 1)
    loose := Function.update t.loose i false }

/-- One pass over the named lists: each slot is filled, and its element compared with the least one
so far. -/
def pass (precedes : Nat → α → α → Except Failure Bool) :
    List (Fin N) → Option (Fin N × α) → Stock N α → Except Failure (Option (Fin N × α)) × Stock N α
  | [], best, t => (.ok best, t)
  | i :: names, best, t =>
      match t.coming i, best with
      | none, _ => pass precedes names best (t.fetched i)
      | some x, none => pass precedes names (some (i, x)) (t.fetched i)
      | some x, some least =>
          match precedes t.calls x least.2 with
          | .error e => (.error e, (t.fetched i).counted)
          | .ok better =>
              pass precedes names (if better then some (i, x) else some least)
                (t.fetched i).counted

/-- What a call comes to, and where it leads. -/
def respond (precedes : Nat → α → α → Except Failure Bool) :
    Pull → Stock N α → Except Failure (Answer α) × Stock N α
  | .hasNext, t => (.ok (.truth ((List.finRange N).any fun i => (t.coming i).isSome)), t)
  | .next, t =>
      match t.pass precedes (List.finRange N) none with
      | (.error e, t') => (.error e, t')
      | (.ok none, t') => (.error .ended, t')
      | (.ok (some (i, x)), t') => (.ok (.element x), t'.passed i)
  | .remove, t =>
      match t.due with
      | none => (.error (.notMoved .remove false), t)
      | some i =>
          if t.loose i then (.ok .done, t.struck i) else (.error (.notMoved .remove true), t)

/-- The lists as they are, and what the merge keeps. -/
def look (t : Stock N α) : (Fin N → List α) × Merge α := (t.left, t.merge)

/-- What calls come to, one after the other, and how they leave the lists and the merge. -/
def report (precedes : Nat → α → α → Except Failure Bool) (calls : List Pull) (t : Stock N α) :
    List (Except Failure (Answer α) × (Fin N → List α) × Merge α) :=
  replies (respond precedes) look calls t

variable {t : Stock N α} {i j : Fin N} {x : α}

/-! ### Slots. -/

theorem fetched_of_ahead (h : t.ahead i = true) : t.fetched i = t := by
  rw [fetched, h, Bool.true_or, if_pos rfl]

theorem fetched_of_none (h : t.coming i = none) : t.fetched i = t := by
  rw [fetched, h, Option.isNone_none, Bool.or_true, if_pos rfl]

theorem fetched_of_some (hahead : t.ahead i = false) (h : t.coming i = some x) :
    t.fetched i = { t with
      ahead := Function.update t.ahead i true
      loose := Function.update t.loose i true } := by
  rw [fetched, hahead, h]
  rfl

theorem toDocket_fetched (t : Stock N α) (i : Fin N) : (t.fetched i).toDocket = t.toDocket := by
  unfold fetched
  split <;> rfl

theorem coming_fetched (t : Stock N α) (i j : Fin N) : (t.fetched i).coming j = t.coming j := by
  rw [toDocket_fetched]

theorem ahead_of_slot (h : t.slot i = some x) : t.ahead i = true := by
  by_contra hnot
  rw [slot, if_neg hnot] at h
  cases h

theorem slot_fetched_self (t : Stock N α) (i : Fin N) : (t.fetched i).slot i = t.coming i := by
  cases hahead : t.ahead i with
  | true => rw [fetched_of_ahead hahead, slot, hahead, if_pos rfl]
  | false =>
      cases hcoming : t.coming i with
      | none =>
          rw [fetched_of_none hcoming, slot, hahead]
          rfl
      | some x =>
          rw [slot, coming_fetched, hcoming, fetched_of_some hahead hcoming]
          exact if_pos (Function.update_self i true t.ahead)

theorem slot_fetched_ne (t : Stock N α) (h : j ≠ i) : (t.fetched i).slot j = t.slot j := by
  unfold fetched
  split
  · rfl
  · show (if Function.update t.ahead i true j then _ else _) = _
    rw [Function.update_of_ne h]
    rfl

/-- What lies in a slot stays there. -/
theorem slot_fetched_of_some (h : t.slot j = some x) (i : Fin N) :
    (t.fetched i).slot j = some x := by
  by_cases hji : j = i
  · subst hji
    rw [fetched_of_ahead (ahead_of_slot h), h]
  · rw [slot_fetched_ne t hji, h]

theorem ahead_passed_self (t : Stock N α) (i : Fin N) : (t.passed i).ahead i = false := by
  show Function.update t.ahead i false i = false
  rw [Function.update_self]

theorem ahead_passed_ne (t : Stock N α) (h : j ≠ i) : (t.passed i).ahead j = t.ahead j := by
  show Function.update t.ahead i false j = t.ahead j
  rw [Function.update_of_ne h]

theorem slot_passed_self (t : Stock N α) (i : Fin N) : (t.passed i).slot i = none := by
  rw [slot, ahead_passed_self]
  rfl

theorem slot_passed_ne (t : Stock N α) (h : j ≠ i) : (t.passed i).slot j = t.slot j := by
  rw [slot, ahead_passed_ne t h]
  show (if t.ahead j then (t.toDocket.passed i).coming j else none) = _
  rw [Docket.coming_passed_ne t.toDocket h]
  rfl

theorem slot_struck (t : Stock N α) (i j : Fin N) : (t.struck i).slot j = t.slot j := by
  show (if t.ahead j then (t.toDocket.struck i _).coming j else none) = _
  rw [Docket.coming_struck]
  rfl

theorem merge_struck (t : Stock N α) (i : Fin N) :
    (t.struck i).merge = { t.merge with removable := false } := by
  show Merge.mk (List.ofFn (t.struck i).slot) _ _ = _
  rw [show (t.struck i).slot = t.slot from funext fun j => slot_struck t i j]
  rfl

/-! ### One pass. -/

section

variable {precedes : Nat → α → α → Except Failure Bool} {names : List (Fin N)}
  {best : Option (Fin N × α)} {least : Fin N × α}

theorem pass_of_none (h : t.coming i = none) :
    t.pass precedes (i :: names) best = (t.fetched i).pass precedes names best := by
  simp only [pass, h]

theorem pass_of_first (h : t.coming i = some x) :
    t.pass precedes (i :: names) none = (t.fetched i).pass precedes names (some (i, x)) := by
  simp only [pass, h]

theorem pass_of_compared (h : t.coming i = some x) {better : Bool}
    (hcompare : precedes t.calls x least.2 = .ok better) :
    t.pass precedes (i :: names) (some least)
      = (t.fetched i).counted.pass precedes names
          (if better then some (i, x) else some least) := by
  simp only [pass, h, hcompare]

theorem pass_of_failed (h : t.coming i = some x) {e : Failure}
    (hcompare : precedes t.calls x least.2 = .error e) :
    t.pass precedes (i :: names) (some least) = (.error e, (t.fetched i).counted) := by
  simp only [pass, h, hcompare]

/-- What each fetch and each comparison preserves, a pass preserves. -/
theorem pass_of_step {P : Stock N α → Prop} (hfetched : ∀ t i, P t → P (t.fetched i))
    (hcounted : ∀ t, P t → P t.counted) (names : List (Fin N)) (best : Option (Fin N × α))
    (h : P t) : P (t.pass precedes names best).2 := by
  induction names generalizing t best with
  | nil => exact h
  | cons i names ih =>
      unfold pass
      split
      · exact ih _ (hfetched t i h)
      · exact ih _ (hfetched t i h)
      · split
        · exact hcounted _ (hfetched t i h)
        · exact ih _ (hcounted _ (hfetched t i h))

/-- What a pass finds lies in its slot afterwards, if the least element so far does. -/
theorem slot_of_pass_from (hbest : ∀ least, best = some least → t.slot least.1 = some least.2)
    {found : Fin N × α} (h : (t.pass precedes names best).1 = .ok (some found)) :
    (t.pass precedes names best).2.slot found.1 = some found.2 := by
  induction names generalizing t best with
  | nil => exact hbest found (Except.ok.inj h)
  | cons i names ih =>
      have hkept : ∀ least, best = some least → (t.fetched i).slot least.1 = some least.2 :=
        fun least hleast => slot_fetched_of_some (hbest least hleast) i
      cases hcoming : t.coming i with
      | none =>
          rw [pass_of_none hcoming] at h ⊢
          exact ih hkept h
      | some x =>
          have hself : ∀ least, some (i, x) = some least →
              (t.fetched i).slot least.1 = some least.2 := by
            intro least hleast
            obtain rfl := Option.some.inj hleast
            exact (slot_fetched_self t i).trans hcoming
          cases best with
          | none =>
              rw [pass_of_first hcoming] at h ⊢
              exact ih hself h
          | some least =>
              cases hcompare : precedes t.calls x least.2 with
              | error e =>
                  rw [pass_of_failed hcoming hcompare] at h
                  cases h
              | ok better =>
                  rw [pass_of_compared hcoming hcompare] at h ⊢
                  cases better with
                  | true => exact ih (t := (t.fetched i).counted) hself h
                  | false => exact ih (t := (t.fetched i).counted) hkept h

theorem slot_of_pass {found : Fin N × α} (h : (t.pass precedes names none).1 = .ok (some found)) :
    (t.pass precedes names none).2.slot found.1 = some found.2 := by
  refine slot_of_pass_from ?_ h
  intro least hleast
  cases hleast

/-- A pass that finds nothing changes nothing. -/
theorem eq_of_pass_none (h : (t.pass precedes names best).1 = .ok none) :
    best = none ∧ (t.pass precedes names best).2 = t := by
  induction names generalizing t best with
  | nil => exact ⟨Except.ok.inj h, rfl⟩
  | cons i names ih =>
      cases hcoming : t.coming i with
      | none =>
          rw [pass_of_none hcoming, fetched_of_none hcoming] at h ⊢
          exact ih h
      | some x =>
          -- From here on there is a least element, which the rest of the pass cannot lose.
          cases best with
          | none =>
              rw [pass_of_first hcoming] at h
              exact nomatch (ih h).1
          | some least =>
              cases hcompare : precedes t.calls x least.2 with
              | error e =>
                  rw [pass_of_failed hcoming hcompare] at h
                  cases h
              | ok better =>
                  rw [pass_of_compared hcoming hcompare] at h
                  have hnone := (ih h).1
                  cases better <;> cases hnone

end

/-! ### What holds throughout. -/

/-- What is held ahead is there, and nothing is missing of what was not read; if the list that gave
the last element was read further, then the cursor can remove what it has read. -/
structure Sane (t : Stock N α) : Prop where
  taken_le : ∀ i, t.taken i ≤ (t.rows i).length
  present : ∀ i k e, t.taken i ≤ k → (t.rows i)[k]? = some e → e.removed = false
  last : ∀ i, t.due = some i → t.last = some i
  given_pos : ∀ i, t.due = some i → 0 < t.given i
  loose : ∀ i, t.due = some i → t.ahead i = true → t.loose i = true
  held : ∀ i e, t.due = some i → t.ahead i = true → (t.rows i)[t.given i]? = some e →
    e.removed = false

theorem taken_of_ahead (h : t.ahead i = true) : t.taken i = t.given i + 1 := by
  rw [taken, h]
  rfl

theorem taken_of_not_ahead (h : t.ahead i = false) : t.taken i = t.given i := by
  rw [taken, h]
  rfl

theorem Sane.coming (h : t.Sane) (hahead : t.ahead i = true) : (t.coming i).isSome = true := by
  have hle := h.taken_le i
  rw [taken_of_ahead hahead] at hle
  rw [Docket.coming, List.getElem?_eq_getElem hle]
  rfl

theorem given_le_taken (t : Stock N α) (i : Fin N) : t.given i ≤ t.taken i := Nat.le_add_right _ _

theorem Sane.fetched (h : t.Sane) (i : Fin N) : (t.fetched i).Sane := by
  cases hahead : t.ahead i with
  | true =>
      rw [fetched_of_ahead hahead]
      exact h
  | false =>
      cases hcoming : t.coming i with
      | none =>
          rw [fetched_of_none hcoming]
          exact h
      | some x =>
          have hold := fetched_of_some hahead hcoming
          have hself : (t.fetched i).ahead i = true := by
            rw [hold]
            exact Function.update_self i true t.ahead
          have hother : ∀ {j}, j ≠ i → (t.fetched i).ahead j = t.ahead j := by
            intro j hji
            rw [hold]
            exact Function.update_of_ne hji true t.ahead
          have htaken : ∀ j, t.taken j ≤ (t.fetched i).taken j := by
            intro j
            by_cases hji : j = i
            · subst hji
              rw [taken_of_ahead hself, taken_of_not_ahead hahead, toDocket_fetched]
              exact Nat.le_succ _
            · rw [taken, taken, hother hji, toDocket_fetched]
          refine ⟨fun j => ?_, fun j k e hk he => ?_, ?_, ?_, fun j hdue hj => ?_,
            fun j e hdue hj he => ?_⟩
          · rw [toDocket_fetched]
            by_cases hji : j = i
            · subst hji
              obtain ⟨e, he, -⟩ := Option.map_eq_some_iff.mp hcoming
              rw [taken_of_ahead hself, toDocket_fetched]
              exact (List.getElem?_eq_some_iff.mp he).1
            · rw [taken, hother hji, toDocket_fetched]
              exact h.taken_le j
          · rw [toDocket_fetched] at he
            exact h.present j k e ((htaken j).trans hk) he
          · rw [toDocket_fetched]
            exact h.last
          · rw [toDocket_fetched]
            exact h.given_pos
          · rw [toDocket_fetched] at hdue
            rw [hold]
            by_cases hji : j = i
            · subst hji
              exact Function.update_self j true t.loose
            · refine (Function.update_of_ne hji true t.loose).trans (h.loose j hdue ?_)
              exact (hother hji).symm.trans hj
          · rw [toDocket_fetched] at hdue he
            by_cases hji : j = i
            · subst hji
              exact h.present j _ e (taken_of_not_ahead hahead).le he
            · exact h.held j e hdue ((hother hji).symm.trans hj) he

theorem Sane.counted (h : t.Sane) : t.counted.Sane :=
  ⟨h.taken_le, h.present, h.last, h.given_pos, h.loose, h.held⟩

/-- What is held ahead was read already when it is given. -/
theorem taken_passed (hahead : t.ahead i = true) (j : Fin N) :
    (t.passed i).taken j = t.taken j := by
  by_cases hji : j = i
  · subst hji
    rw [taken_of_not_ahead (ahead_passed_self t j), taken_of_ahead hahead]
    exact Docket.given_passed_self _ j
  · rw [taken, taken, ahead_passed_ne t hji]
    exact congrArg (· + (t.ahead j).toNat) (Docket.given_passed_ne _ hji)

theorem Sane.passed (h : t.Sane) (hahead : t.ahead i = true) : (t.passed i).Sane := by
  have hne : ∀ {j}, (t.passed i).ahead j = true → j ≠ i := by
    rintro j hj rfl
    exact absurd ((ahead_passed_self t j).symm.trans hj) Bool.false_ne_true
  have hnever : ∀ {j} {P : Prop}, (t.passed i).due = some j → (t.passed i).ahead j = true → P :=
    fun hdue hj => absurd (Option.some.inj hdue).symm (hne hj)
  refine ⟨fun j => ?_, fun j k e hk he => ?_, fun j hj => hj, fun j hj => ?_,
    fun j hdue hj => hnever hdue hj, fun j e hdue hj => hnever hdue hj⟩
  · rw [taken_passed hahead]
    exact h.taken_le j
  · rw [taken_passed hahead] at hk
    exact h.present j k e hk he
  · obtain rfl := Option.some.inj hj
    show 0 < (t.toDocket.passed i).given i
    rw [Docket.given_passed_self]
    exact Nat.succ_pos _

theorem Sane.struck (h : t.Sane) (hdue : t.due = some i) : (t.struck i).Sane := by
  refine ⟨fun j => ?_, fun j k e hk he => ?_, nofun, nofun, nofun, nofun⟩
  · have hlength := congrArg List.length (Docket.map_item_struck t.toDocket i (t.taken i - 1) j)
    rw [List.length_map, List.length_map] at hlength
    exact (h.taken_le j).trans_eq hlength.symm
  · have hrow : (t.rows j)[k]? = some e := by
      rw [← he]
      by_cases hji : j = i
      · subst hji
        have hpos : 0 < t.taken j := (h.given_pos j hdue).trans_le (given_le_taken t j)
        have hlt : t.taken j ≤ k := hk
        show _ = ((t.toDocket.struck j (t.taken j - 1)).rows j)[k]?
        rw [Docket.rows_struck_self, List.getElem?_modify_ne _ _ (by omega)]
      · exact congrArg (·[k]?) (Docket.rows_struck_ne t.toDocket _ hji).symm
    exact h.present j k e hk hrow

theorem Sane.pass (h : t.Sane) (precedes : Nat → α → α → Except Failure Bool)
    (names : List (Fin N)) (best : Option (Fin N × α)) : (t.pass precedes names best).2.Sane :=
  pass_of_step (fun _ i h => h.fetched i) (fun _ h => h.counted) names best h

theorem sane_start (readers : Fin N → Reader α) : (start readers).Sane where
  taken_le i := by
    show (readers i).behind.length ≤ ((readers i).items.map _).length
    rw [List.length_map, Reader.items, List.length_append]
    exact Nat.le_add_right _ _
  present i k e _ he := by
    obtain ⟨x, -, rfl⟩ := List.mem_map.mp (List.mem_of_getElem? he)
    rfl
  last := nofun
  given_pos := nofun
  loose := nofun
  held := nofun

theorem respond_next_of_ok {precedes : Nat → α → α → Except Failure Bool} {found : Fin N × α}
    (h : (t.pass precedes (List.finRange N) none).1 = .ok (some found)) :
    respond precedes .next t
      = (.ok (.element found.2), (t.pass precedes (List.finRange N) none).2.passed found.1) := by
  rw [respond, ← Prod.eta (t.pass precedes (List.finRange N) none), h]

theorem respond_next_of_none {precedes : Nat → α → α → Except Failure Bool}
    (h : (t.pass precedes (List.finRange N) none).1 = .ok none) :
    respond precedes .next t = (.error .ended, (t.pass precedes (List.finRange N) none).2) := by
  rw [respond, ← Prod.eta (t.pass precedes (List.finRange N) none), h]

theorem respond_next_of_error {precedes : Nat → α → α → Except Failure Bool} {e : Failure}
    (h : (t.pass precedes (List.finRange N) none).1 = .error e) :
    respond precedes .next t = (.error e, (t.pass precedes (List.finRange N) none).2) := by
  rw [respond, ← Prod.eta (t.pass precedes (List.finRange N) none), h]

theorem respond_remove_of_none {precedes : Nat → α → α → Except Failure Bool}
    (h : t.due = none) : respond precedes .remove t = (.error (.notMoved .remove false), t) := by
  simp only [respond, h]

theorem respond_remove_of_loose {precedes : Nat → α → α → Except Failure Bool}
    (h : t.due = some i) (hloose : t.loose i = true) :
    respond precedes .remove t = (.ok .done, t.struck i) := by
  simp only [respond, h, hloose, if_true]

theorem respond_remove_of_fast {precedes : Nat → α → α → Except Failure Bool}
    (h : t.due = some i) (hloose : t.loose i = false) :
    respond precedes .remove t = (.error (.notMoved .remove true), t) := by
  simp only [respond, h, hloose, Bool.false_eq_true, if_false]

theorem Sane.respond (precedes : Nat → α → α → Except Failure Bool) (call : Pull) (h : t.Sane) :
    (Stock.respond precedes call t).2.Sane := by
  cases call with
  | hasNext => exact h
  | next =>
      have hpass := h.pass precedes (List.finRange N) none
      cases hfound : (t.pass precedes (List.finRange N) none).1 with
      | error e =>
          rw [respond_next_of_error hfound]
          exact hpass
      | ok found =>
          cases found with
          | none =>
              rw [respond_next_of_none hfound]
              exact hpass
          | some found =>
              rw [respond_next_of_ok hfound]
              exact hpass.passed (ahead_of_slot (slot_of_pass hfound))
  | remove =>
      cases hdue : t.due with
      | none =>
          rw [respond_remove_of_none hdue]
          exact h
      | some i =>
          cases hloose : t.loose i with
          | false =>
              rw [respond_remove_of_fast hdue hloose]
              exact h
          | true =>
              rw [respond_remove_of_loose hdue hloose]
              exact h.struck hdue

/-! ## §3. Comparators that never fail. -/

/-- The comparator always answers. -/
def sure (precedes : Nat → α → α → Bool) (k : Nat) (x y : α) : Except Failure Bool :=
  .ok (precedes k x y)

/-- The cursors that were read ahead can remove what they crossed, and the list that gave the last
element was not read further as long as that can be removed. -/
structure Tidy (t : Stock N α) : Prop where
  loose : ∀ i, t.ahead i = true → t.loose i = true
  due : ∀ i, t.due = some i → t.ahead i = false ∧ t.loose i = true

/-- A pass that never fails finds what it picks without reading ahead. -/
theorem pass_sure (precedes : Nat → α → α → Bool) (names : List (Fin N))
    (best : Option (Fin N × α)) (t : Stock N α) :
    (t.pass (sure precedes) names best).1 = .ok (t.toDocket.pick precedes names best).1
      ∧ (t.pass (sure precedes) names best).2.toDocket
        = (t.toDocket.pick precedes names best).2 := by
  induction names generalizing t best with
  | nil => exact ⟨rfl, rfl⟩
  | cons i names ih =>
      have hdocket := toDocket_fetched t i
      unfold Docket.pick
      cases hcoming : t.coming i with
      | none =>
          rw [pass_of_none hcoming, ← hdocket]
          exact ih best (t.fetched i)
      | some x =>
          cases best with
          | none =>
              rw [pass_of_first hcoming, ← hdocket]
              exact ih (some (i, x)) (t.fetched i)
          | some least =>
              have hcompare : sure precedes t.calls x least.2
                  = .ok (precedes t.calls x least.2) := rfl
              have hcounted : (t.fetched i).counted.toDocket = t.toDocket.counted :=
                congrArg Docket.counted hdocket
              rw [pass_of_compared hcoming hcompare, ← hcounted]
              exact ih _ (t.fetched i).counted

theorem loose_fetched (h : ∀ j, t.ahead j = true → t.loose j = true) (i : Fin N) :
    ∀ j, (t.fetched i).ahead j = true → (t.fetched i).loose j = true := by
  unfold fetched
  split
  · exact h
  · intro j
    show Function.update t.ahead i true j = true → Function.update t.loose i true j = true
    by_cases hji : j = i
    · subst hji
      rw [Function.update_self, Function.update_self]
      exact id
    · rw [Function.update_of_ne hji, Function.update_of_ne hji]
      exact h j

theorem loose_of_pass (h : ∀ j, t.ahead j = true → t.loose j = true)
    (precedes : Nat → α → α → Except Failure Bool) :
    ∀ j, (t.pass precedes (List.finRange N) none).2.ahead j = true →
      (t.pass precedes (List.finRange N) none).2.loose j = true :=
  pass_of_step (P := fun t => ∀ j, t.ahead j = true → t.loose j = true)
    (fun _ i h => loose_fetched h i) (fun _ h => h) _ none h

theorem tidy_start (readers : Fin N → Reader α) : (start readers).Tidy := ⟨nofun, nofun⟩

/-- With a comparator that never fails a call comes to what the docket says. -/
theorem Tidy.respond (h : t.Tidy) (precedes : Nat → α → α → Bool) (call : Pull) :
    (Stock.respond (sure precedes) call t).1 = (Docket.respond precedes call t.toDocket).1
      ∧ (Stock.respond (sure precedes) call t).2.toDocket
        = (Docket.respond precedes call t.toDocket).2
      ∧ (Stock.respond (sure precedes) call t).2.Tidy := by
  cases call with
  | hasNext => exact ⟨rfl, rfl, h⟩
  | next =>
      obtain ⟨hfound, hdocket⟩ := pass_sure precedes (List.finRange N) none t
      have hloose := loose_of_pass h.loose (sure precedes)
      cases hpick : (t.toDocket.pick precedes (List.finRange N) none).1 with
      | none =>
          rw [hpick] at hfound
          have hsame := (eq_of_pass_none hfound).2
          rw [respond_next_of_none hfound, Docket.respond_next_of_none hpick]
          refine ⟨rfl, hdocket, ?_⟩
          rw [hsame]
          exact h
      | some found =>
          rw [hpick] at hfound
          have hslot := slot_of_pass hfound
          rw [respond_next_of_ok hfound, Docket.respond_next_of_some hpick]
          refine ⟨rfl, congrArg (Docket.passed · found.1) hdocket, fun j hj => ?_, fun j hj => ?_⟩
          · by_cases hji : j = found.1
            · subst hji
              exact absurd ((ahead_passed_self _ _).symm.trans hj) Bool.false_ne_true
            · exact hloose j ((ahead_passed_ne _ hji).symm.trans hj)
          · obtain rfl : found.1 = j := Option.some.inj hj
            exact ⟨ahead_passed_self _ _, hloose _ (ahead_of_slot hslot)⟩
  | remove =>
      cases hdue : t.due with
      | none =>
          rw [respond_remove_of_none hdue, Docket.respond_remove_of_none hdue]
          exact ⟨rfl, rfl, h⟩
      | some i =>
          obtain ⟨hahead, hloose⟩ := h.due i hdue
          rw [respond_remove_of_loose hdue hloose, Docket.respond_remove_of_due hdue]
          refine ⟨rfl, ?_, fun j hj => ?_, nofun⟩
          · show t.toDocket.struck i (t.taken i - 1) = _
            rw [taken_of_not_ahead hahead]
          · by_cases hji : j = i
            · subst hji
              exact absurd (hahead.symm.trans hj) Bool.false_ne_true
            · exact (Function.update_of_ne hji false t.loose).trans (h.loose j hj)

end Stock

end Cursors.Merge
