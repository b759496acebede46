/-
  Cursors.Proofs.Merge.Shelf
  ──────────────────────────
  **A MERGE OF LISTS.**

  A shelf holds any number of lists with a cursor in each, and the state of
  what is built on the cursors.  The cursors are independent finite sources
  of a merge: each delivers what lies in front of it.
-/
import Cursors.Proofs.Merge.Rows

namespace Cursors

variable {α ρ : Type}

/-! ## §1. Shelves. -/

/-- Lists, a cursor in each, and the state of what is built on the cursors. -/
structure Shelf (α ρ : Type) where
  items : Nat → List α
  cursor : Nat → Cursor
  top : ρ

namespace Shelf

/-- The `i`-th list. -/
def list (i : Nat) : Field (Shelf α ρ) (List α) where
  get s := s.items i
  set xs s := { s with items := fun j => if j = i then xs else s.items j }

/-- The cursor in the `i`-th list. -/
def here (i : Nat) : Field (Shelf α ρ) Cursor where
  get s := s.cursor i
  set c s := { s with cursor := fun j => if j = i then c else s.cursor j }

/-- The state of what is built on the cursors. -/
def self : Field (Shelf α ρ) ρ where
  get := Shelf.top
  set t s := { s with top := t }

/-- The `i`-th cursor as a source. -/
def source (i : Nat) : TwoWay (Shelf α ρ) α := Cursor.twoWay (here i) (.ofList (list i))

/-- New cursors at the front of the given lists. -/
def ofLists (xss : List (List α)) (t : ρ) : Shelf α ρ where
  items i := (xss[i]?).getD []
  cursor _ := {}
  top := t

/-- The `i`-th cursor stands in the gap of `z`. -/
structure Shows (s : Shelf α ρ) (i bound : Nat) (z : Zipper α) : Prop where
  items_eq : s.items i = z.items
  spans : (s.cursor i).Spans bound z

variable {s : Shelf α ρ} {i j bound : Nat} {z : Zipper α}

theorem Shows.list_get (h : s.Shows i bound z) : (list i).get s = z.items := h.items_eq

theorem Shows.here_get (h : s.Shows i bound z) : ((here i).get s).Spans bound z := h.spans

theorem hasNext_apply (h : s.Shows i bound z) :
    (source i).hasNext s = .value (!z.front.isEmpty) s :=
  Cursor.hasMore_apply h.list_get h.here_get .forward

/-- A step of one cursor leaves the others where they are. -/
theorem next_of_front (h : s.Shows i bound z) {x : α} {rest : List α}
    (hx : z.front = x :: rest) :
    ∃ s', (source i).next s = .value x s' ∧ s'.Shows i bound (z.cross .forward 1)
      ∧ s'.top = s.top ∧ ∀ j z', j ≠ i → s.Shows j bound z' → s'.Shows j bound z' := by
  obtain ⟨c, hnext, hc⟩ := Cursor.next_of_front h.list_get h.here_get hx
  refine ⟨(here i).set c s, hnext, ⟨?_, ?_⟩, rfl, fun j z' hj h' => ⟨h'.items_eq, ?_⟩⟩
  · exact h.items_eq.trans (z.items_cross .forward 1).symm
  · simpa [here] using hc
  · simpa [here, hj] using h'.spans

theorem shows_ofLists {xss : List (List α)} {xs : List α} (hxs : xss[i]? = some xs)
    (hbound : xs.length ≤ bound) (t : ρ) :
    (ofLists xss t).Shows i bound (.ofList xs 0) where
  items_eq := by simp [ofLists, hxs]
  spans := Cursor.spans_ofList (Place.standsAt_plain (Nat.zero_le bound)) (Nat.zero_le _) hbound

/-! ## §2. Cursors as the sources of a merge. -/

theorem source_of_mem {count : Nat} {src : Forward (Shelf α ρ) α}
    (h : ((List.range count).map fun i => (source i).toForward)[i]? = some src) :
    (source i).toForward = src := by
  rw [List.getElem?_map] at h
  obtain ⟨j, hj, rfl⟩ := Option.map_eq_some_iff.mp h
  obtain ⟨hlt, rfl⟩ := List.getElem?_eq_some_iff.mp hj
  rw [List.getElem_range]

/-- The first `count` cursors as the sources of a merge. -/
def children (count : Nat) : Merge.Children (Shelf α (Merge α)) α where
  self := self
  sources := (List.range count).map fun i => (source i).toForward
  Holds s m xss := s.top = m ∧ xss.length = count ∧ ∃ bound, ∀ i xs, xss[i]? = some xs →
    ∃ z, s.Shows i bound z ∧ z.front = xs
  self_get := by
    rintro s m xss ⟨htop, -⟩
    exact htop
  self_set := by
    rintro s m xss ⟨-, hlen, bound, hxss⟩ m'
    refine ⟨rfl, hlen, bound, fun i xs hxs => ?_⟩
    obtain ⟨z, hz, hfront⟩ := hxss i xs hxs
    exact ⟨z, ⟨hz.items_eq, hz.spans⟩, hfront⟩
  length_eq := by
    rintro s m xss ⟨-, hlen, -⟩
    simp [hlen]
  hasNext_apply := by
    rintro s m xss i src xs ⟨htop, hlen, bound, hxss⟩ hsource hxs
    obtain ⟨z, hz, rfl⟩ := hxss i xs hxs
    obtain rfl := source_of_mem hsource
    exact ⟨s, hasNext_apply hz, htop, hlen, bound, hxss⟩
  next_apply := by
    rintro s m xss i src x xs ⟨htop, hlen, bound, hxss⟩ hsource hxs
    obtain ⟨z, hz, hfront⟩ := hxss i _ hxs
    obtain rfl := source_of_mem hsource
    obtain ⟨s', hnext, hz', htop', hothers⟩ := next_of_front hz hfront
    refine ⟨s', hnext, htop'.trans htop, by rw [List.length_set, hlen], bound,
      fun j ys hys => ?_⟩
    -- Only the cursor that was asked has moved.
    by_cases hij : i = j
    · subst hij
      have hlt := (List.getElem?_eq_some_iff.mp hxs).1
      rw [List.getElem?_set_self hlt, Option.some.injEq] at hys
      exact ⟨_, hz', by rw [← hys]; simp [Zipper.cross, hfront]⟩
    · rw [List.getElem?_set_ne hij] at hys
      obtain ⟨z', hz'', hfront'⟩ := hxss j ys hys
      exact ⟨z', hothers j z' (Ne.symm hij) hz'', hfront'⟩

theorem holds_ofLists (xss : List (List α)) (m : Merge α) :
    (children xss.length).Holds (ofLists xss m) m xss := by
  refine ⟨rfl, rfl, xss.flatten.length, fun i xs hxs => ?_⟩
  have hle : xs.length ≤ xss.flatten.length :=
    (List.sublist_flatten_of_mem (List.mem_of_getElem? hxs)).length_le
  exact ⟨.ofList xs 0, shows_ofLists hxs hle m, by simp [Zipper.ofList]⟩

end Shelf

end Cursors
