/-
  Cursors.Proofs.Window.Slice
  ───────────────────────────
  **A WINDOW KEEPS TO ITS SLICE.**

  The window from `n` up to `m` on a container is asked the same as a cursor
  in a list of its own, which has the elements from `n` up to `m`.  Beside
  the run goes that cursor, and the position at which the window last read
  an element that it returned.

  Main result (`window_keeps_to_slice`): in every run of gestures that keep
  the size, the two answer the same; the container is the list of the cursor
  between what lay before `n` and what lay from `m` on; nothing outside is
  read or written, and a replacement changes the element returned last.  A
  new window is refused exactly if its bounds are not those of a slice.

  All this holds just if the window can count up to its end.  One in a fixed
  width that is too narrow goes around, and never ends
  (`Twin.not_matched_of_short`).
-/
import Cursors.Proofs.Leaf
import Cursors.Proofs.Window.Width
import Cursors.Workspace.Build

namespace Cursors

variable {α : Type}

/-! ## §1. Bounds. -/

/-- A position outside is reported as such, and so is a wrong order. -/
theorem Window.kind_of_checkBounds {size : Nat} {start stop : Int} {e : Failure}
    (h : Window.checkBounds size start stop = .error e) :
    e.kind = "IndexError" ∨ e.kind = "ValueError" := by
  unfold Window.checkBounds at h
  split at h
  · obtain rfl := Except.error.inj h
    exact .inl rfl
  · split at h
    · obtain rfl := Except.error.inj h
      exact .inl rfl
    · split at h
      · obtain rfl := Except.error.inj h
        exact .inr rfl
      · exact nomatch h

namespace Workspace

/-- A position that is not negative keeps its number. -/
theorem Value.place?_of_integer? {v : Value} {n : Int} (h : v.integer? = some n) (hn : 0 ≤ n) :
    ∃ p : Place, v.place? = some p ∧ p.toInt = n := by
  match v, h with
  | .int k, h =>
      obtain rfl := Option.some.inj h
      exact ⟨.plain k.toNat, if_pos hn, Int.toNat_of_nonneg hn⟩
  | .bool b, h =>
      exact ⟨.truth b, rfl, Option.some.inj h⟩
  | .scalar (.integer width) (.int k) _, h =>
      obtain rfl := Option.some.inj h
      exact ⟨.fixed width k, if_pos hn, rfl⟩

/-- What a new window on a container comes to: `last` may be left out, and is the end then. -/
structure Opens (size : Nat) (items first last : Value) (a b : Int) (s : Store) : Prop where
  /-- The bounds of a slice give a window from the one up to the other, which counts in the type of
  the first. -/
  of_slice : 0 ≤ a ∧ a ≤ b ∧ b ≤ size → ∃ start stop : Place, first.place? = some start
    ∧ start.toInt = a ∧ stop.toInt = b
    ∧ newListWindow items first last s
      = newIterator (.listWindow items { window := .fresh start stop }) s
  /-- All others are refused, and nothing is made. -/
  of_other : ¬ (0 ≤ a ∧ a ≤ b ∧ b ≤ size) → ∃ e, newListWindow items first last s = .failure e s
    ∧ (e.kind = "IndexError" ∨ e.kind = "ValueError")

theorem opens {size : Nat} {items first last : Value} {a b : Int} {s : Store}
    (hitems : items ≠ .null) (hsize : sizeOf items s = .value size s)
    (ha : first.integer? = some a)
    (hb : (if last = .null then .int size else last).integer? = some b) :
    Opens size items first last a b s := by
  generalize hlast : (if last = .null then .int size else last) = stop at hb
  have hwindow : newListWindow items first last s
      = ((do
          Act.ofExcept (Window.checkBounds size a b)
          let window := .fresh (first.place?.getD default) (stop.place?.getD default)
          newIterator (.listWindow items { window })) : Act Store Value) s := by
    simp only [newListWindow, windowOf, needPresent, if_neg hitems, Act.bind_apply, Act.pure_apply,
      hsize, hlast, ha, hb]
    cases Window.checkBounds size a b <;> rfl
  constructor
  · intro hslice
    have hok := Window.checkBounds_eq_ok_iff.mpr hslice
    obtain ⟨p, hp, hpn⟩ := Value.place?_of_integer? ha hslice.1
    obtain ⟨q, hq, hqn⟩ := Value.place?_of_integer? hb (by omega)
    refine ⟨p, q, hp, hpn, hqn, ?_⟩
    rw [hwindow, hok, hp, hq]
    rfl
  · intro hother
    cases hcheck : Window.checkBounds size a b with
    | ok u => exact absurd (Window.checkBounds_eq_ok_iff.mp hcheck) hother
    | error e =>
        refine ⟨e, ?_, Window.kind_of_checkBounds hcheck⟩
        rw [hwindow, hcheck]
        rfl

end Workspace

/-! ## §2. The cursor beside. -/

/-- A cursor in a list of its own, and the position at which the window read the element that it
returned last, since the start or the last reset. -/
structure Twin (α : Type) where
  cursor : Bench α Unit
  returned : Option Int := none

/-- The position of the element returned last after a gesture, where `log` tells what was read:
a move returns what it has read, and a reset forgets it. -/
def Twin.position (before : Option Int) (g : Gesture α) (r : Except Failure (Reply α))
    (log : List Int) : Option Int :=
  match g, r with
  | .reset, _ => none
  | _, .ok (.answer (.element _)) => log.getLast?
  | _, _ => before

/-- The cursor is asked the same. -/
def Twin.note (l : Twin α) (g : Gesture α) (r : Except Failure (Reply α)) (p' : Pane α) :
    Twin α where
  cursor :=
    match g.ask Bench.source Bench.rewind l.cursor with
    | .value _ b | .failure _ b => b
    | .unfinished => l.cursor
  returned := Twin.position l.returned g r p'.log

/-- A gesture on a window from `n` up to `m` on the list `xs`. -/
structure Matched (xs : List α) (n m : Nat) (l : Twin α) (g : Gesture α) (p : Pane α)
    (r : Except Failure (Reply α)) (p' : Pane α) : Prop where
  /-- The cursor answers or fails likewise, and its list is in the container. -/
  same : ∃ b, g.ask Bench.source Bench.rewind l.cursor = .of r b
    ∧ p'.items = xs.take n ++ b.items ++ xs.drop m
  /-- Nothing is read or written outside. -/
  inside : ∃ seg, p'.log = p.log ++ seg ∧ ∀ i ∈ seg, (n : Int) ≤ i ∧ i < m
  /-- The element returned is the one that was read. -/
  read : ∀ x, r = .ok (.answer (.element x)) →
    ∃ i : Nat, p'.log = p.log ++ [(i : Int)] ∧ p.items[i]? = some x
  /-- A replacement changes the element returned last, and no other. -/
  replaced : ∀ x, g = .call (.set x) → r = .ok (.answer .done) →
    ∃ i : Nat, l.returned = some (i : Int) ∧ n ≤ i ∧ i < m ∧ p'.items = p.items.set i x
  /-- An index is answered as it is told, in the type of the start; below zero this needs a sign. -/
  told : ∀ k, r = .ok (.index k) → 0 ≤ k ∨ p.view.window.start.hasSign = true →
    (Workspace.computedFrom p.view.window.start k).integer? = some k
  /-- All else leaves the container as it is. -/
  kept : (∀ x, g ≠ .call (.set x)) ∨ (∃ e, r = .error e) → p'.items = p.items

namespace Twin

/-- Window and cursor show the same zipper. -/
structure Follows (l : Twin α) (xs : List α) (n m : Nat) (p : Pane α) (z : Zipper α) : Prop where
  pane : p.Shows n m (xs.take n) (xs.drop m) z
  cursor : l.cursor.Shows (m + 1) z
  returned_eq : l.returned = z.touched.map fun i => ((n + i : Nat) : Int)

variable {l : Twin α} {xs : List α} {n m : Nat} {p p' : Pane α} {z z' : Zipper α}
  {g : Gesture α} {r : Except Failure (Reply α)} {reached : Option Nat} {b : Bench α Unit}

theorem note_cursor (h : g.ask Bench.source Bench.rewind l.cursor = .of r b) :
    (l.note g r p').cursor = b := by
  simp only [note, h]
  cases r <;> rfl

/-- The position of the element returned last goes with the element crossed last. -/
theorem Follows.note_returned (h : l.Follows xs n m p z) (hreach : z.Reaches g r z' reached)
    (hlog : p'.log = p.log ++ reached.toList.map fun i => ((n + i : Nat) : Int)) :
    (l.note g r p').returned = z'.touched.map fun i => ((n + i : Nat) : Int) := by
  show position l.returned g r p'.log = _
  have hz := h.returned_eq
  cases hreach with
  | @moved d x xs i hx hi =>
      have hlast : p'.log.getLast? = some ((n + i : Nat) : Int) := by
        rw [hlog]
        exact List.getLast?_concat
      rw [hi]
      cases d <;> exact hlast
  | replaced hi =>
      rw [z.touched_replaced]
      exact hz
  | @told g reply hreply hset hreset =>
      rw [← hz]
      unfold position
      split
      · contradiction
      · next x _ heq => exact absurd (Except.ok.inj heq) (hreply x)
      · rfl
  | rewound => rfl
  | @failed g e hreset =>
      rw [← hz]
      unfold position
      split
      · contradiction
      · next heq => exact nomatch heq
      · rfl

/-- What the window looks at is the element that the zipper reaches. -/
theorem Follows.inside (h : l.Follows xs n m p z) (hreach : z.Reaches g r z' reached)
    (hlog : p'.log = p.log ++ reached.toList.map fun i => ((n + i : Nat) : Int)) :
    ∃ seg, p'.log = p.log ++ seg ∧ ∀ i ∈ seg, (n : Int) ≤ i ∧ i < m := by
  refine ⟨_, hlog, ?_⟩
  have hlen := h.pane.length_eq
  have hbound : ∀ i, i < z.items.length →
      ∀ k ∈ [((n + i : Nat) : Int)], (n : Int) ≤ k ∧ k < m := by
    intro i hi k hk
    obtain rfl := List.mem_singleton.mp hk
    omega
  cases hreach with
  | @moved d x xs i hx hi =>
      have hlt := Zipper.touched_lt hi
      rw [z.items_cross] at hlt
      exact hbound i hlt
  | @replaced x i hi => exact hbound i (Zipper.touched_lt hi)
  | told | rewound | failed => exact List.forall_mem_nil _

/-- The start of the window reaches all indexes in its slice. -/
theorem Follows.told (h : l.Follows xs n m p z) {k : Int} (hk : (z.respond g).1 = .ok (.index k))
    (hsign : 0 ≤ k ∨ p.view.window.start.hasSign = true) :
    (Workspace.computedFrom p.view.window.start k).integer? = some k := by
  have hlen := h.pane.length_eq
  rw [z.length_items] at hlen
  obtain ⟨hlow, hhigh⟩ := Zipper.index_of_respond hk
  exact Workspace.computedFrom_of_reachesTo h.pane.start.reaches hlow (by omega) hsign

theorem Follows.matched (h : l.Follows xs n m p z) (hp' : p'.Shows n m (xs.take n) (xs.drop m) z')
    (hrespond : (z.respond g).1 = r) (hask : g.ask Bench.source Bench.rewind l.cursor = .of r b)
    (hb : b.Shows (m + 1) z')
    (hreach : z.Reaches g r z' reached)
    (hlog : p'.log = p.log ++ reached.toList.map fun i => ((n + i : Nat) : Int)) :
    Matched xs n m l g p r p' where
  same := ⟨b, hask, by rw [hp'.items_eq, hb.items_eq]⟩
  inside := h.inside hreach hlog
  read := by
    rintro x rfl
    cases hreach with
    | @moved d x rest i hx hi =>
        have hlt := Zipper.touched_lt hi
        have hcrossed : (z.cross d 1).toward d.opposite = x :: z.toward d.opposite := by
          rw [z.toward_opposite_cross, hx]
          rfl
        obtain ⟨j, hj, hjx⟩ := Zipper.touched_of_toward (z.crossed_cross d Nat.one_pos) hcrossed
        obtain rfl : i = j := Option.some.inj (hi.symm.trans hj)
        rw [z.items_cross] at hlt hjx
        exact ⟨n + i, hlog, (h.pane.getElem? hlt).trans hjx⟩
    | told hreply => exact absurd rfl (hreply x)
  replaced := by
    intro x hg hr
    cases hreach with
    | @replaced y i hi =>
        obtain rfl : y = x := by simpa using hg
        have hlt := Zipper.touched_lt hi
        have hlen := h.pane.length_eq
        refine ⟨n + i, by rw [h.returned_eq, hi]; rfl, by omega, by omega, ?_⟩
        rw [hp'.items_eq, h.pane.set_items hlt, Zipper.items_replaced hi]
    | told _ hset => exact absurd hg (hset x)
    | rewound => exact nomatch hg
    | moved | failed => exact nomatch hr
  kept := by
    intro hkept
    have hitems : z'.items = z.items := by
      cases hreach with
      | moved => exact z.items_cross _ 1
      | @replaced x i hi =>
          rcases hkept with hset | ⟨e, he⟩
          · exact absurd rfl (hset x)
          · exact nomatch he
      | told | rewound | failed => rfl
    rw [hp'.items_eq, h.pane.items_eq, hitems]
  told k hk hsign := h.told (hrespond.trans hk) hsign

/-- A gesture on the window is matched by the cursor. -/
theorem Follows.ask (owner : String) (h : l.Follows xs n m p z) (hsize : g.keepsSize = true) :
    ∃ r p', g.ask (Pane.source owner) Pane.rewind p = .of r p' ∧ Matched xs n m l g p r p'
      ∧ (l.note g r p').Follows xs n m p' (z.respond g).2 := by
  obtain ⟨p', reached, hask, hp', hreach, hlog⟩ := Pane.ask_respond owner h.pane hsize
  have hroom : z.items.length < m + 1 := by
    have hlen := h.pane.length_eq
    omega
  obtain ⟨b, hcursor, hb, -⟩ := Bench.ask_respond h.cursor hroom g
  refine ⟨_, p', hask, h.matched hp' rfl hcursor hb hreach hlog, hp', ?_,
    h.note_returned hreach hlog⟩
  rw [note_cursor hcursor]
  exact hb

end Twin

/-! ## §3. Too narrow a width. -/

namespace Twin

section

variable {xs : List α} {n m : Nat} {width : Number.Width} {owner : String} {l : Twin α}
  {p p' : Pane α} {z : Zipper α} {r : Except Failure (Reply α)}

/-- Where the cursor is at its end, the window has a further element. -/
theorem not_matched_hasNext_of_short (hp : p.Short width) (hz : l.cursor.Shows (m + 1) z)
    (hroom : z.items.length < m + 1) (hend : z.front = [])
    (hask : (Gesture.call .hasNext).ask (Pane.source owner) Pane.rewind p = .of r p') :
    ¬ Matched xs n m l (.call .hasNext) p r p' := by
  intro hmatched
  have hmore : (Pane.source owner).hasMore .forward p = .of (.ok true) p := hp.hasNext owner
  obtain ⟨rfl, -⟩ := Outcome.of_inj
    (hask.symm.trans (Gesture.ask_call_of (Call.ask_hasMore_of hmore)))
  obtain ⟨b, hcursor, -⟩ := hmatched.same
  obtain ⟨b', hcursor', -⟩ := Bench.ask_respond hz hroom (.call .hasNext)
  have hanswer : (.ok (.answer (.truth true)) : Except Failure (Reply α))
      = .ok (.answer (.truth (!z.front.isEmpty))) :=
    (Outcome.of_inj (hcursor.symm.trans hcursor')).1
  simp [hend] at hanswer

/-- Before that the two go on together, and the window stays too narrow. -/
theorem short_of_matched_next (hp : p.Short width) (hz : l.cursor.Shows (m + 1) z)
    (hroom : z.items.length < m + 1) {x : α} {rest : List α} (hfront : z.front = x :: rest)
    (hask : (Gesture.call .next).ask (Pane.source owner) Pane.rewind p = .of r p')
    (hmatched : Matched xs n m l (.call .next) p r p') :
    p'.Short width ∧ (l.note (.call .next) r p').cursor.Shows (m + 1) (z.cross .forward 1) := by
  obtain ⟨b, hcursor, -⟩ := hmatched.same
  obtain ⟨b', hcursor', hb', -⟩ := Bench.ask_respond hz hroom (.call .next)
  rw [Zipper.respond_next, Zipper.move_of_toward_cons (d := .forward) hfront] at hcursor' hb'
  obtain ⟨rfl, rfl⟩ := Outcome.of_inj (hcursor.symm.trans hcursor')
  -- The window has given an element as well, so that it has gone on.
  have hgone := Pane.after_ask_next owner hp.lt_stop
  unfold Act.After at hgone
  rw [hask] at hgone
  refine ⟨hp.gone_on hgone, ?_⟩
  rw [note_cursor hcursor]
  exact hb'

end

/-- A window that is too narrow for its slice still has a further element when the cursor, which
has `k` elements before it, is at its end. -/
theorem not_matched_of_short {width : Number.Width} (owner : String) (xs : List α) (n m k : Nat)
    {l : Twin α} {p : Pane α} {z : Zipper α} (hp : p.Short width) (hz : l.cursor.Shows (m + 1) z)
    (hroom : z.items.length < m + 1) (hk : z.front.length = k) :
    ¬ Throughout (Gesture.ask (Pane.source owner) Pane.rewind) (fun l g _ r p' => l.note g r p')
      (Matched xs n m) (List.replicate k (.call .next) ++ [.call .hasNext]) l p := by
  induction k generalizing l p z with
  | zero =>
      rintro ⟨r, p', hask, hmatched, -⟩
      exact not_matched_hasNext_of_short hp hz hroom (List.length_eq_zero_iff.mp hk) hask hmatched
  | succ k ih =>
      rintro ⟨r, p', hask, hmatched, hrest⟩
      obtain ⟨x, rest, hfront⟩ := List.exists_cons_of_length_eq_add_one hk
      obtain ⟨hp', hz'⟩ := short_of_matched_next hp hz hroom hfront hask hmatched
      refine ih hp' hz' ?_ ?_ hrest
      · rw [z.items_cross]
        exact hroom
      · show (z.front.drop 1).length = k
        rw [List.length_drop, hk, Nat.add_sub_cancel]

end Twin

/-! ## §4. Every run. -/

/-- In every run of gestures that keep the size, a new window from `start` up to `stop` is matched
by a new cursor in its slice. -/
def KeepsToSlice (owner : String) (xs : List α) (start stop : Place) : Prop :=
  ∀ gestures : List (Gesture α), (∀ g ∈ gestures, g.keepsSize = true) →
    Throughout (Gesture.ask (Pane.source owner) Pane.rewind) (fun l g _ r p' => l.note g r p')
      (Matched xs start.toInt.toNat stop.toInt.toNat) gestures
      { cursor := ⟨(xs.take stop.toInt.toNat).drop start.toInt.toNat, {}, ()⟩ }
      (Pane.fresh xs start stop)

/-- A new cursor in a slice shows the slice. -/
theorem Twin.shows_fresh (xs : List α) (n m : Nat) :
    Bench.Shows ⟨(xs.take m).drop n, {}, ()⟩ (m + 1) (.ofList ((xs.take m).drop n) 0) where
  items_eq := (Zipper.items_ofList _ 0).symm
  spans := by
    have hlen : ((xs.take m).drop n).length ≤ m + 1 := by
      rw [List.length_drop, List.length_take]
      omega
    exact Cursor.spans_ofList (Place.standsAt_plain (Nat.zero_le _)) (Nat.zero_le _) hlen

/-- A new window and a new cursor in its slice. -/
theorem Twin.follows_fresh {xs : List α} {start stop : Place} {n m : Nat}
    (hstart : start.StandsAt n m) (hstop : stop.toInt = m) (hm : m ≤ xs.length) :
    Twin.Follows { cursor := ⟨(xs.take m).drop n, {}, ()⟩ } xs n m (Pane.fresh xs start stop)
      (.ofList ((xs.take m).drop n) 0) where
  pane := Pane.shows_fresh hstart hstop hm
  cursor := Twin.shows_fresh xs n m
  returned_eq := rfl

theorem keepsToSlice_of_reachesTo (owner : String) {xs : List α} {start stop : Place}
    (hbounds : Window.checkBounds xs.length start.toInt stop.toInt = .ok ())
    (hreach : start.ReachesTo stop.toInt.toNat) : KeepsToSlice owner xs start stop := by
  intro gestures hsize
  obtain ⟨hstart, hle, hinside⟩ := Window.checkBounds_eq_ok_iff.mp hbounds
  have hstands : start.StandsAt start.toInt.toNat stop.toInt.toNat := ⟨by omega, by omega, hreach⟩
  have hstop : stop.toInt = stop.toInt.toNat := by omega
  have hm : stop.toInt.toNat ≤ xs.length := by omega
  have hfresh := Twin.follows_fresh hstands hstop hm
  apply throughout_of_invariant
    (fun _ l p => ∃ z, Twin.Follows l xs start.toInt.toNat stop.toInt.toNat p z) ?_ ⟨_, hfresh⟩
  rintro k l p g hg ⟨z, hz⟩
  obtain ⟨r, p', hask, hmatched, hz'⟩ := hz.ask owner (hsize g hg)
  exact ⟨r, p', hask, hmatched, _, hz'⟩

theorem reachesTo_of_keepsToSlice {owner : String} {xs : List α} {start stop : Place}
    (hbounds : Window.checkBounds xs.length start.toInt stop.toInt = .ok ())
    (hheld : start.HeldInWidth) (hkeeps : KeepsToSlice owner xs start stop) :
    start.ReachesTo stop.toInt.toNat := by
  obtain ⟨hstart, hle, hinside⟩ := Window.checkBounds_eq_ok_iff.mp hbounds
  cases start with
  | plain n => trivial
  | truth b => trivial
  | fixed width n =>
      show (stop.toInt.toNat : Int) ≤ width.greatest
      by_contra hbehind
      have hn : n ≤ width.greatest := (of_decide_eq_true hheld).2
      have hshort : (Pane.fresh xs (.fixed width n) stop).Short width := by
        refine ⟨?_, n, hn, rfl⟩
        show width.greatest < stop.toInt
        omega
      have hcursor := Twin.shows_fresh xs n.toNat stop.toInt.toNat
      have hlen : (Zipper.ofList ((xs.take stop.toInt.toNat).drop n.toNat) 0).items.length
          < stop.toInt.toNat + 1 := by
        rw [Zipper.items_ofList, List.length_drop, List.length_take]
        omega
      refine Twin.not_matched_of_short owner xs _ _ _ hshort hcursor hlen rfl (hkeeps _ ?_)
      intro g hg
      rcases List.mem_append.mp hg with hg | hg
      · rw [List.eq_of_mem_replicate hg]
        rfl
      · rw [List.mem_singleton.mp hg]
        rfl

/-- A window whose bounds are accepted keeps to its slice just if the type of its start goes up to
its end, as types without a width always do, and a new window on a container is refused exactly if
its bounds are not those of a slice.  Its indexes are answered in the type of the start. -/
theorem window_keeps_to_slice (owner : String) (xs : List α) :
    (∀ start stop : Place, Window.checkBounds xs.length start.toInt stop.toInt = .ok () →
      start.HeldInWidth →
        (KeepsToSlice owner xs start stop ↔ start.ReachesTo stop.toInt.toNat))
      ∧ (∀ (items first last : Workspace.Value) (a b : Int) (s : Workspace.Store),
        items ≠ .null → Workspace.sizeOf items s = .value xs.length s →
        first.integer? = some a →
        (if last = .null then .int xs.length else last : Workspace.Value).integer? = some b →
          Workspace.Opens xs.length items first last a b s)
      ∧ ∀ (v items : Workspace.Value) (w : ListWindow) (s : Workspace.Store) (k : Int),
        s.iterator? v = some (.listWindow items w) →
          Workspace.indexValue v k s = .value (Workspace.computedFrom w.window.start k) s
            ∧ Workspace.indexBefore v k s = .value (Workspace.computedFrom w.window.start k) s := by
  refine ⟨?_, ?_, ?_⟩
  · intro start stop hbounds hheld
    exact ⟨reachesTo_of_keepsToSlice hbounds hheld, keepsToSlice_of_reachesTo owner hbounds⟩
  · intro items first last a b s hitems hlength ha hb
    exact Workspace.opens hitems hlength ha hb
  · intro v items w s k hv
    exact Workspace.indexValue_of_listWindow hv k

/-- A store with a list of five, and a window on the three in its middle. -/
def Workspace.Store.ofFive : Workspace.Store where
  cells := #[.iterator .empty, .list [.int 5, .int 1, .int 2, .int 3, .int 9],
    .iterator (.listWindow (.object 1) { window := .fresh (.fixed (.signed 8) 1) (.plain 4) })]

/-- The three in the middle of five, counted in eight bits: both ends, indexes there, replacements
on both sides, one of them refused, and a reset. -/
theorem window_keeps_to_slice_five :
    (Window.checkBounds 5 1 4 = .ok () ∧ (Place.fixed (.signed 8) 1).HeldInWidth
      ∧ (Place.fixed (.signed 8) 1).ReachesTo 4
      ∧ Throughout (Gesture.ask (Pane.source "ArrayListIterator") Pane.rewind)
        (fun l g _ r p' => l.note g r p') (Matched [5, 1, 2, 3, 9] 1 4)
        [.call (.set 6), .call .previous, .previousIndex, .call .next, .call (.set 7), .call .next,
          .call .next, .call .next, .call .previous, .call (.set 8), .nextIndex, .reset, .call .next]
        { cursor := ⟨[1, 2, 3], {}, ()⟩ }
        (Pane.fresh [5, 1, 2, 3, 9] (.fixed (.signed 8) 1) (.plain 4)))
      ∧ (Workspace.sizeOf (.object 1) .ofFive = .value 5 .ofFive
        ∧ Workspace.Opens 5 (.object 1) (.int 1) .null 1 5 .ofFive
        ∧ Workspace.Opens 5 (.object 1) (.int 4) (.int 2) 4 2 .ofFive)
      ∧ Workspace.Store.ofFive.iterator? (.object 2)
          = some (.listWindow (.object 1) { window := .fresh (.fixed (.signed 8) 1) (.plain 4) })
      ∧ Workspace.indexBefore (.object 2) (-1) .ofFive
        = .value (.scalar (.integer (.signed 8)) (.int (-1)) 0) .ofFive := by
  have hbounds : Window.checkBounds 5 1 4 = .ok () := rfl
  have hheld : (Place.fixed (.signed 8) 1).HeldInWidth := by decide
  have hreach : (Place.fixed (.signed 8) 1).ReachesTo 4 := by decide
  have hlength : Workspace.sizeOf (.object 1) .ofFive = .value 5 .ofFive := rfl
  have hwindow : Workspace.Store.ofFive.iterator? (.object 2)
      = some (.listWindow (.object 1) { window := .fresh (.fixed (.signed 8) 1) (.plain 4) }) := rfl
  obtain ⟨hkeeps, hopens, hindexes⟩ := window_keeps_to_slice "ArrayListIterator" [5, 1, 2, 3, 9]
  have hruns := (hkeeps (.fixed (.signed 8) 1) (.plain 4) hbounds hheld).mpr hreach
  exact ⟨⟨hbounds, hheld, hreach, hruns _ (by decide)⟩,
    ⟨hlength, hopens (.object 1) (.int 1) .null 1 5 _ (by simp) hlength rfl rfl,
      hopens (.object 1) (.int 4) (.int 2) 4 2 _ (by simp) hlength rfl rfl⟩,
    hwindow, (hindexes (.object 2) (.object 1) _ .ofFive (-1) hwindow).2⟩

/-- Not every window that is opened keeps to its slice.  One that counts in eight bits goes on from
127 to -128, which is a position from the back; and in eight bits without a sign the index before
the first element is not -1. -/
theorem window_not_always_in_slice :
    (Workspace.Value.scalar (.integer (.signed 8)) (.int 127) 0).place?
        = some (.fixed (.signed 8) 127)
      ∧ Window.checkBounds (List.range 200).length 127 200 = .ok ()
      ∧ (Place.fixed (.signed 8) 127).following.toInt = -128
      ∧ ¬ KeepsToSlice "ArrayListIterator" (List.range 200) (.fixed (.signed 8) 127) (.plain 200)
      ∧ (Workspace.computedFrom (.fixed (.unsigned 8) 3) (-1)).integer? = some 255 := by
  have hbounds : Window.checkBounds (List.range 200).length (Place.fixed (.signed 8) 127).toInt
      (Place.plain 200).toInt = .ok () := by
    rw [List.length_range]
    rfl
  have hheld : (Place.fixed (.signed 8) 127).HeldInWidth := by decide
  refine ⟨rfl, hbounds, rfl, ?_, rfl⟩
  intro hkeeps
  have hreach := reachesTo_of_keepsToSlice hbounds hheld hkeeps
  exact absurd hreach (by decide)

end Cursors
