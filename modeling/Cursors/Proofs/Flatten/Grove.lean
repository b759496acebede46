/-
  Cursors.Proofs.Flatten.Grove
  ────────────────────────────
  **AN ORCHARD OF PLAIN LISTS.**

  In a grove the classifier makes up an iterator over a list for each value
  that is a branch, and an iterator is opened with a look-ahead over it.
  Iterators are numbered, so that no two of them share their state.
-/
import Cursors.Primitive.Single
import Cursors.Proofs.Flatten.Orchard
import Cursors.Proofs.Leaf

namespace Cursors

/-! ## §1. Groves. -/

/-- A plain value, or one of the iterators of a grove. -/
inductive Thing (V : Type) where
  | plain (v : V)
  | walk (id : Nat)
  deriving DecidableEq, Repr

/-- A branch of a grove: one of the iterators, or the root alone. -/
inductive Bough where
  | walk (id : Nat)
  | sole
  deriving DecidableEq, Repr

/-- What a classifier makes of a value, as seen from a grove. -/
def Kind.things {V : Type} : Kind V → Kind (Thing V)
  | .leaf x => .leaf (.plain x)
  | .branch below => .branch (below.map .plain)
  | .fails e => .fails e

section

variable {V : Type} {k : Kind V}

theorem Kind.of_things_leaf {x : Thing V} (h : k.things = .leaf x) :
    ∃ y, k = .leaf y ∧ .plain y = x := by
  cases k with
  | leaf y => exact ⟨y, rfl, Kind.leaf.inj h⟩
  | branch | fails => exact nomatch h

theorem Kind.of_things_branch {xs : List (Thing V)} (h : k.things = .branch xs) :
    ∃ below : List V, k = .branch below ∧ below.map .plain = xs := by
  cases k with
  | branch below => exact ⟨below, rfl, Kind.branch.inj h⟩
  | leaf | fails => exact nomatch h

theorem Kind.of_things_fails {e : Failure} (h : k.things = .fails e) : k = .fails e := by
  cases k with
  | fails e' => exact congrArg Kind.fails (Kind.fails.inj h)
  | leaf | branch => exact nomatch h

end

/-- A flattening, the iterators made up so far with the list of each, the steps taken of it and
the look-ahead over it, and the source of the root alone. -/
structure Grove (V : Type) where
  flat : Flatten Bough (Thing V) := {}
  next : Nat := 0
  content : Nat → List V := fun _ => []
  taken : Nat → Nat := fun _ => 0
  peek : Nat → Peek (Thing V) := fun _ => {}
  sole : Single (Thing V) := { item := .walk 0, fresh := false }
  asked : List (Thing V) := []
  opened : List Bough := []

namespace Grove

variable {V : Type}

/-- The state of the flattening. -/
def self : Field (Grove V) (Flatten Bough (Thing V)) where
  get := Grove.flat
  set t s := { s with flat := t }

/-- The look-ahead over an iterator. -/
def peekAt (id : Nat) : Field (Grove V) (Peek (Thing V)) where
  get s := s.peek id
  set p s := { s with peek := Function.update s.peek id p }

/-- The number of steps taken of an iterator. -/
def takenAt (id : Nat) : Field (Grove V) Nat where
  get s := s.taken id
  set n s := { s with taken := Function.update s.taken id n }

/-- The source of the root alone. -/
def soleField : Field (Grove V) (Single (Thing V)) where
  get := Grove.sole
  set t s := { s with sole := t }

/-- The elements of an iterator. -/
def pull (id : Nat) : Act (Grove V) (Thing V) := fun s =>
  Feed.pull (Feed.ofList ((s.content id).map .plain)) (takenAt id) s

/-- The elements of a branch. -/
def elements : Bough → Forward (Grove V) (Thing V)
  | .walk id => Peek.forward "source" (peekAt id) (pull id)
  | .sole => Single.forward "root" (pure false) soleField

/-- Make up an iterator over a list. -/
def iterate (xs : List V) : Act (Grove V) (Thing V) := fun s =>
  .value (.walk s.next)
    { s with
      next := s.next + 1
      content := Function.update s.content s.next xs
      taken := Function.update s.taken s.next 0 }

/-- The classifier that goes by `kind`. -/
def ask (kind : Thing V → Kind V) (v : Thing V) : Act (Grove V) (Thing V) := do
  Act.update fun s => { s with asked := s.asked ++ [v] }
  match kind v with
  | .leaf x => pure (.plain x)
  | .branch below => iterate below
  | .fails e => Act.fail e

/-- An iterator is opened with a new look-ahead over it. -/
def branch : Thing V → Act (Grove V) (Option Bough)
  | .plain _ => pure none
  | .walk id => do
      Act.update fun s =>
        { s with peek := Function.update s.peek id {}, opened := .walk id :: s.opened }
      return some (.walk id)

/-- The root alone is a branch. -/
def single (x : Thing V) : Act (Grove V) Bough := do
  Act.update fun s => { s with sole := { item := x }, opened := .sole :: s.opened }
  return .sole

/-- The branch has `xs` still to deliver. -/
def At (s : Grove V) : Bough → List (Thing V) → Prop
  | .walk id, xs => (s.peek id).Awaits ((s.content id).map .plain) (s.taken id) xs
  | .sole, xs => xs = if s.sole.fresh && !s.sole.removed then [s.sole.item] else []

/-- What a grove keeps of its past, and what it has ahead. -/
structure Holds (r : Record Bough (Thing V)) (s : Grove V) (t : Flatten Bough (Thing V))
    (left : Bough → List (Thing V)) : Prop where
  flat_eq : s.flat = t
  asked_eq : s.asked = r.asked
  opened_eq : s.opened = r.opened
  lt_next : ∀ id, .walk id ∈ s.opened → id < s.next
  has : ∀ i, i ∈ s.opened → s.At i (left i)

/-! ## §2. The branches of a grove. -/

variable {r : Record Bough (Thing V)} {s : Grove V} {t : Flatten Bough (Thing V)}
  {left : Bough → List (Thing V)} {kind : Thing V → Kind V}

/-- Only what belongs to a branch counts for it. -/
theorem Holds.of_other (h : Holds r s t left) {s' : Grove V} {i : Bough} {xs : List (Thing V)}
    (hflat : s'.flat = s.flat) (hasked : s'.asked = s.asked) (hopened : s'.opened = s.opened)
    (hnext : s'.next = s.next) (hi : s'.At i xs)
    (hother : ∀ j, j ≠ i → s'.At j (left j) = s.At j (left j)) :
    Holds r s' t (Function.update left i xs) where
  flat_eq := hflat.trans h.flat_eq
  asked_eq := hasked.trans h.asked_eq
  opened_eq := hopened.trans h.opened_eq
  lt_next := by
    rw [hopened, hnext]
    exact h.lt_next
  has j hj := by
    by_cases hij : j = i
    · subst hij
      rw [Function.update_self]
      exact hi
    · rw [Function.update_of_ne hij, hother j hij]
      exact h.has j (hopened ▸ hj)

/-- An iterator of a grove and the look-ahead over it, the rest being as in `s₀`. -/
def pair (s₀ : Grove V) (id : Nat) : Pair (Grove V) (Peek (Thing V)) Nat where
  first := peekAt id
  second := takenAt id
  Holds s p n :=
    s = { s₀ with
      peek := Function.update s₀.peek id p, taken := Function.update s₀.taken id n }
  first_get := by
    rintro s p n rfl
    simp only [peekAt, Function.update_self]
  second_get := by
    rintro s p n rfl
    simp only [takenAt, Function.update_self]
  first_set := by
    rintro s p n rfl p'
    simp only [peekAt, Function.update_idem]
  second_set := by
    rintro s p n rfl n'
    simp only [takenAt, Function.update_idem]

theorem feeds_pull (s₀ : Grove V) (id : Nat) :
    (pair s₀ id).Feeds ((s₀.content id).map .plain) (pull id) := by
  rintro s p n rfl
  show Feed.pull _ (takenAt id) _ = _
  rw [Feed.pull_apply]
  simp only [takenAt, Function.update_self]
  rfl

theorem Holds.awaits (h : Holds r s t left) {id : Nat} (hid : .walk id ∈ r.opened) :
    (pair s id).Has (fun p n xs => p.Awaits ((s.content id).map .plain) n xs) s
      (left (.walk id)) := by
  refine ⟨s.peek id, s.taken id, ?_, h.has (.walk id) (h.opened_eq ▸ hid)⟩
  show s = _
  rw [Function.update_eq_self, Function.update_eq_self]

theorem Holds.of_awaits (h : Holds r s t left) {s' : Grove V} {id : Nat} {xs : List (Thing V)}
    (h' : (pair s id).Has (fun p n xs => p.Awaits ((s.content id).map .plain) n xs) s' xs) :
    Holds r s' t (Function.update left (.walk id) xs) := by
  obtain ⟨p, n, rfl, hp⟩ := h'
  refine h.of_other rfl rfl rfl rfl ?_ fun j hj => ?_
  · simpa only [At, Function.update_self] using hp
  · cases j with
    | sole => rfl
    | walk k =>
        have hk : k ≠ id := fun hk => hj (by rw [hk])
        simp only [At, Function.update_of_ne hk]

theorem gives_walk {id : Nat} (hid : .walk id ∈ r.opened) (t : Flatten Bough (Thing V))
    (left : Bough → List (Thing V)) :
    Gives (elements (.walk id)) fun s xs =>
      Holds r s t (Function.update left (.walk id) xs) where
  hasNext_apply := by
    intro s xs h
    have hawaits := h.awaits hid
    rw [Function.update_self] at hawaits
    obtain ⟨s', hask, h'⟩ := (Pair.gives_peek (feeds_pull s id) "source").hasNext_apply hawaits
    have hs' := h.of_awaits h'
    rw [Function.update_idem] at hs'
    exact ⟨s', hask, hs'⟩
  next_of_cons := by
    intro s x xs h
    have hawaits := h.awaits hid
    rw [Function.update_self] at hawaits
    obtain ⟨s', hnext, h'⟩ := (Pair.gives_peek (feeds_pull s id) "source").next_of_cons hawaits
    have hs' := h.of_awaits h'
    rw [Function.update_idem] at hs'
    exact ⟨s', hnext, hs'⟩
  next_of_nil := by
    intro s h
    have hawaits := h.awaits hid
    rw [Function.update_self] at hawaits
    obtain ⟨s', hnext, h'⟩ := (Pair.gives_peek (feeds_pull s id) "source").next_of_nil hawaits
    have hs' := h.of_awaits h'
    rw [Function.update_idem] at hs'
    exact ⟨s', hnext, hs'⟩

theorem gives_sole (hsole : .sole ∈ r.opened) (t : Flatten Bough (Thing V))
    (left : Bough → List (Thing V)) :
    Gives (elements .sole) fun s xs => Holds r s t (Function.update left .sole xs) where
  hasNext_apply := by
    intro s xs h
    have hxs := h.has _ (h.opened_eq ▸ hsole)
    rw [Function.update_self, At] at hxs
    refine ⟨s, ?_, h⟩
    show Outcome.value (s.sole.fresh && !s.sole.removed) s = _
    rw [hxs]
    cases s.sole.fresh && !s.sole.removed <;> rfl
  next_of_cons := by
    intro s x xs h
    have hxs := h.has _ (h.opened_eq ▸ hsole)
    rw [Function.update_self, At] at hxs
    cases hmore : s.sole.fresh && !s.sole.removed with
    | false => rw [hmore] at hxs; exact absurd hxs (by simp)
    | true =>
        rw [hmore, if_pos rfl] at hxs
        obtain ⟨rfl, rfl⟩ := List.cons.inj hxs
        refine ⟨soleField.set { s.sole with fresh := false } s, ?_, ?_⟩
        · show Single.next soleField s = _
          simp only [Single.next, Act.bind_apply, Field.read_apply, soleField, hmore, if_true]
          rfl
        · have hs' : Holds r (soleField.set { s.sole with fresh := false } s) t
              (Function.update (Function.update left .sole [s.sole.item]) .sole []) := by
            refine h.of_other rfl rfl rfl rfl rfl fun j hj => ?_
            cases j with
            | sole => exact absurd rfl hj
            | walk k => rfl
          rw [Function.update_idem] at hs'
          exact hs'
  next_of_nil := by
    intro s h
    have hxs := h.has _ (h.opened_eq ▸ hsole)
    rw [Function.update_self, At] at hxs
    cases hmore : s.sole.fresh && !s.sole.removed with
    | true => rw [hmore] at hxs; exact absurd hxs (by simp)
    | false =>
        refine ⟨s, ?_, h⟩
        show Single.next soleField s = _
        simp only [Single.next, Act.bind_apply, Field.read_apply, soleField, hmore]
        rfl

/-! ## §3. New iterators. -/

/-- A value of a grove that is not one of its iterators. -/
def Plain : Thing V → Prop
  | .plain _ => True
  | .walk _ => False

/-- An iterator that was made up and not opened yet. -/
def Fresh (s : Grove V) : Thing V → List (Thing V) → Prop
  | .plain _, _ => False
  | .walk id, xs =>
      id < s.next ∧ .walk id ∉ s.opened ∧ s.taken id = 0 ∧ (s.content id).map .plain = xs

/-- To open an iterator shows in no other. -/
theorem branch_of_fresh (h : Holds r s t left) {x : Thing V} {xs : List (Thing V)}
    (hx : s.Fresh x xs) :
    ∃ i s', i ∉ r.opened ∧ branch x s = .value (some i) s'
      ∧ Holds { r with opened := i :: r.opened } s' t (Function.update left i xs) := by
  match x, hx with
  | .walk id, ⟨hlt, hnot, htaken, hxs⟩ =>
      refine ⟨.walk id, _, h.opened_eq ▸ hnot, rfl, h.flat_eq, h.asked_eq, ?_, ?_, ?_⟩
      · show _ :: s.opened = _
        rw [h.opened_eq]
      · intro k hk
        rcases List.mem_cons.mp hk with hk | hk
        · obtain rfl : k = id := Bough.walk.inj hk
          exact hlt
        · exact h.lt_next k hk
      · intro j hj
        by_cases hji : j = .walk id
        · subst hji
          simp only [At, Function.update_self, htaken, hxs]
          exact Peek.awaits_fresh xs
        · have hj' := h.has j ((List.mem_cons.mp hj).resolve_left hji)
          rw [Function.update_of_ne hji]
          cases j with
          | sole => exact hj'
          | walk k =>
              have hk : k ≠ id := fun hk => hji (by rw [hk])
              simpa only [At, Function.update_of_ne hk] using hj'

theorem single_of_plain (h : Holds r s t left) (hopened : r.opened = []) (x : Thing V) :
    ∃ i s', single x s = .value i s'
      ∧ Holds { r with opened := [i] } s' t (Function.update left i [x]) := by
  have hnone : s.opened = [] := h.opened_eq.trans hopened
  refine ⟨.sole, _, rfl, h.flat_eq, h.asked_eq, ?_, ?_, ?_⟩
  · show _ :: s.opened = _
    rw [hnone]
  · intro k hk
    rcases List.mem_cons.mp hk with hk | hk
    · exact absurd hk (by simp)
    · exact h.lt_next k hk
  · intro j hj
    have hj' : j ∈ .sole :: s.opened := hj
    rw [hnone, List.mem_singleton] at hj'
    subst hj'
    simp only [At, Function.update_self]
    rfl

/-- To be classified shows in the record only. -/
theorem Holds.noted (h : Holds r s t left) (v : Thing V) :
    Holds (r.note v) { s with asked := s.asked ++ [v] } t left where
  flat_eq := h.flat_eq
  asked_eq := by
    rw [h.asked_eq]
    rfl
  opened_eq := h.opened_eq
  lt_next := h.lt_next
  has := h.has

/-- To make up an iterator shows in no branch. -/
theorem iterate_apply (h : Holds r s t left) (xs : List V) :
    ∃ y s', iterate xs s = .value y s' ∧ Holds r s' t left ∧ s'.Fresh y (xs.map .plain) := by
  have hnot : .walk s.next ∉ s.opened := fun hmem => Nat.lt_irrefl _ (h.lt_next _ hmem)
  refine ⟨.walk s.next, _, rfl, ⟨h.flat_eq, h.asked_eq, h.opened_eq, ?_, ?_⟩, ?_⟩
  · intro k hk
    exact Nat.lt_succ_of_lt (h.lt_next k hk)
  · intro j hj
    have hj' := h.has j hj
    cases j with
    | sole => exact hj'
    | walk k =>
        have hk : k ≠ s.next := fun hk => hnot (hk ▸ hj)
        simpa only [At, Function.update_of_ne hk] using hj'
  · refine ⟨Nat.lt_succ_self _, hnot, ?_, ?_⟩ <;> simp only [Function.update_self]

section

variable {v : Thing V}

theorem ask_of_leaf (h : Holds r s t left) {x : V} (hkind : kind v = .leaf x) :
    ∃ s', ask kind v s = .value (.plain x) s' ∧ Holds (r.note v) s' t left := by
  refine ⟨_, ?_, h.noted v⟩
  simp only [ask, Act.bind_apply, Act.update_apply, hkind, Act.pure_apply]

theorem ask_of_branch (h : Holds r s t left) {below : List V} (hkind : kind v = .branch below) :
    ∃ y s', ask kind v s = .value y s' ∧ Holds (r.note v) s' t left
      ∧ s'.Fresh y (below.map .plain) := by
  obtain ⟨y, s', hiterate, h', hfresh⟩ := iterate_apply (h.noted v) below
  refine ⟨y, s', ?_, h', hfresh⟩
  simp only [ask, Act.bind_apply, Act.update_apply, hkind, hiterate]

theorem ask_of_fails (h : Holds r s t left) {e : Failure} (hkind : kind v = .fails e) :
    ∃ s', ask kind v s = .failure e s' ∧ Holds (r.note v) s' t left := by
  refine ⟨_, ?_, h.noted v⟩
  simp only [ask, Act.bind_apply, Act.update_apply, hkind, Act.fail_apply]

end

/-- The orchard of a grove and a classifier. -/
def orchard (kind : Thing V → Kind V) (mode : Mode) (report : Thing V → Except Failure String) :
    Orchard (Grove V) Bough (Thing V) where
  kind v := (kind v).things
  mode := mode
  report := report
  ask := ask kind
  branch := branch
  single := single
  self := self
  elements := elements
  asked := Grove.asked
  Holds := Holds
  Plain := Plain
  Fresh := Fresh
  asked_eq h := h.asked_eq
  self_get h := h.flat_eq
  self_set h t' := ⟨rfl, h.asked_eq, h.opened_eq, h.lt_next, h.has⟩
  fresh_set := by
    intro s x xs hx t
    cases x with
    | plain v => exact hx
    | walk id => exact hx
  gives := by
    intro r i hi t left
    cases i with
    | walk id => exact gives_walk hi t left
    | sole => exact gives_sole hi t left
  branch_of_plain := by
    intro x hx s
    cases x with
    | plain v => rfl
    | walk id => exact hx.elim
  branch_of_fresh h hx := branch_of_fresh h hx
  single_of_plain h hopened _ := single_of_plain h hopened _
  ask_of_leaf := by
    intro r s t left v x h hkind
    obtain ⟨y, hy, rfl⟩ := Kind.of_things_leaf hkind
    exact ⟨trivial, ask_of_leaf h hy⟩
  ask_of_branch := by
    intro r s t left v xs h hkind
    obtain ⟨below, hbelow, rfl⟩ := Kind.of_things_branch hkind
    exact ask_of_branch h hbelow
  ask_of_fails := by
    intro r s t left v e h hkind
    exact ask_of_fails h (Kind.of_things_fails hkind)

end Grove

end Cursors
