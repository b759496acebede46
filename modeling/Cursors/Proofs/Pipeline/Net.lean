/-
  Cursors.Proofs.Pipeline.Net
  ───────────────────────────
  **STATIONS.**

  The parts of a pipeline share one state, a net: each part that has a state
  of its own has a station, addressed by the path that leads to the part.
  A part works on its own station and on those below it; this is what
  `Serves` says besides what the part gives, and it is why what a part has
  left does not change while another one works.

  `serves_of_pair`, `serves_of_host` and `serves_of_group` put a part with no
  source, one source or many sources at its place.
-/
import Cursors.Primitive.Window
import Cursors.Combinator.Chain
import Cursors.Combinator.Filter
import Cursors.Combinator.Buffer
import Cursors.Combinator.Merge
import Cursors.Primitive.Single
import Cursors.Proofs.Cursor
import Cursors.Primitive.Peek
import Cursors.Proofs.Supply

namespace Cursors

variable {α τ υ : Type}

/-! ## §1. Nets. -/

/-- A family of `n` members, continued by always the same one. -/
def padded {n : Nat} (f : Fin n → τ) (beyond : τ) (i : Nat) : τ :=
  if h : i < n then f ⟨i, h⟩ else beyond

section

variable {n i : Nat} {f : Fin n → τ} {beyond : τ}

theorem padded_of_lt (hi : i < n) : padded f beyond i = f ⟨i, hi⟩ := dif_pos hi

theorem padded_of_not_lt (hi : ¬ i < n) : padded f beyond i = beyond := dif_neg hi

theorem map_range_padded (f : Fin n → τ) (beyond : τ) :
    (List.range n).map (padded f beyond) = List.ofFn f := by
  apply List.ext_getElem
  · rw [List.length_map, List.length_range, List.length_ofFn]
  · intro i hi hi'
    rw [List.length_ofFn] at hi'
    rw [List.getElem_map, List.getElem_range, List.getElem_ofFn, padded_of_lt hi']

end

/-- The way from the root of a pipeline to one of its parts. -/
abbrev Path := List Nat

/-- Room for the state of any part. -/
structure Station (α : Type) where
  peek : Peek α := {}
  taken : Nat := 0
  items : List α := []
  window : Window := .fresh (.plain 0) (.plain 0)
  cursor : Cursor := {}
  filter : Filter α := {}
  chain : Chain Nat := {}
  merge : Merge α := {}
  buffer : Buffer α := {}

/-- A station for every path. -/
def Net (α : Type) := Path → Station α

namespace Net

/-- Every station is as new. -/
def blank : Net α := fun _ => {}

/-- Replace the station at a path. -/
def put (s : Net α) (a : Path) (u : Station α) : Net α := fun b => if b = a then u else s b

/-- A station, and the nets below it. -/
def plant (u : Station α) (children : Nat → Net α) : Net α
  | [] => u
  | i :: path => children i path

/-- The net below a path. -/
def below (s : Net α) (a : Path) : Net α := fun path => s (a ++ path)

theorem put_self (s : Net α) (a : Path) (u : Station α) : s.put a u a = u := if_pos rfl

theorem put_of_ne {a b : Path} (h : b ≠ a) (s : Net α) (u : Station α) : s.put a u b = s b :=
  if_neg h

theorem below_below (s : Net α) (a b : Path) : (s.below a).below b = s.below (a ++ b) := by
  funext path
  exact congrArg s (List.append_assoc a b path).symm

theorem station_of_below {s : Net α} {a : Path} {u : Station α} {children : Nat → Net α}
    (h : s.below a = plant u children) : s a = u := by
  have := congrFun h []
  rwa [below, List.append_nil] at this

theorem below_of_below {s : Net α} {a : Path} {u : Station α} {children : Nat → Net α}
    (h : s.below a = plant u children) (i : Nat) : s.below (a ++ [i]) = children i := by
  rw [← below_below, h]
  rfl

end Net

/-- A place in a station. -/
structure Slot (α τ : Type) extends Field (Station α) τ where
  get_set : ∀ t s, get (set t s) = t

namespace Slot

def peek : Slot α (Peek α) := ⟨⟨Station.peek, fun p s => { s with peek := p }⟩, fun _ _ => rfl⟩

def taken : Slot α Nat := ⟨⟨Station.taken, fun n s => { s with taken := n }⟩, fun _ _ => rfl⟩

def items : Slot α (List α) :=
  ⟨⟨Station.items, fun xs s => { s with items := xs }⟩, fun _ _ => rfl⟩

def window : Slot α Window :=
  ⟨⟨Station.window, fun w s => { s with window := w }⟩, fun _ _ => rfl⟩

def cursor : Slot α Cursor :=
  ⟨⟨Station.cursor, fun c s => { s with cursor := c }⟩, fun _ _ => rfl⟩

def filter : Slot α (Filter α) :=
  ⟨⟨Station.filter, fun t s => { s with filter := t }⟩, fun _ _ => rfl⟩

def chain : Slot α (Chain Nat) :=
  ⟨⟨Station.chain, fun c s => { s with chain := c }⟩, fun _ _ => rfl⟩

def merge : Slot α (Merge α) :=
  ⟨⟨Station.merge, fun m s => { s with merge := m }⟩, fun _ _ => rfl⟩

def buffer : Slot α (Buffer α) :=
  ⟨⟨Station.buffer, fun b s => { s with buffer := b }⟩, fun _ _ => rfl⟩

theorem peek_apart : Field.Apart (peek (α := α)).toField taken.toField :=
  ⟨fun _ _ => rfl, fun _ _ => rfl⟩

theorem window_apart : Field.Apart (window (α := α)).toField items.toField :=
  ⟨fun _ _ => rfl, fun _ _ => rfl⟩

theorem cursor_apart : Field.Apart (cursor (α := α)).toField items.toField :=
  ⟨fun _ _ => rfl, fun _ _ => rfl⟩

/-- The place in the station at a path. -/
def field (slot : Slot α τ) (a : Path) : Field (Net α) τ where
  get s := slot.get (s a)
  set t s := s.put a (slot.set t (s a))

end Slot

/-! ## §2. What a part works on. -/

namespace Net

/-- The stations that are not at `a` or below it are those of `s₀`. -/
def Outside (a : Path) (s₀ s : Net α) : Prop := ∀ b, ¬ a <+: b → s b = s₀ b

/-- The stations at `a` and below it are those of `s₀`. -/
def Inside (a : Path) (s₀ s : Net α) : Prop := ∀ b, a <+: b → s b = s₀ b

theorem outside_refl (a : Path) (s : Net α) : Outside a s s := fun _ _ => rfl

variable {a : Path} {s₀ s s' : Net α} {i j : Nat}

theorem Outside.trans (h : Outside a s₀ s) (h' : Outside a s s') : Outside a s₀ s' :=
  fun b hb => (h' b hb).trans (h b hb)

theorem Outside.set (h : Outside a s₀ s) (slot : Slot α τ) (t : τ) :
    Outside a s₀ ((slot.field a).set t s) := by
  intro b hb
  have hne : b ≠ a := by
    rintro rfl
    exact hb List.prefix_rfl
  exact (put_of_ne hne s _).trans (h b hb)

theorem prefix_of_child {b : Path} (h : (a ++ [i]) <+: b) : a <+: b :=
  (List.prefix_append a [i]).trans h

theorem not_child_prefix : ¬ (a ++ [i]) <+: a := by
  intro h
  have hlen := h.length_le
  rw [List.length_append, List.length_singleton] at hlen
  omega

/-- Two children have no station in common. -/
theorem child_eq {b : Path} (hi : (a ++ [i]) <+: b) (hj : (a ++ [j]) <+: b) : i = j := by
  have hpre : (a ++ [i]) <+: (a ++ [j]) :=
    List.prefix_of_prefix_length_le hi hj (by simp)
  have heq := hpre.eq_of_length (by simp)
  exact List.singleton_inj.mp (List.append_cancel_left heq)

/-- What is outside of a part is outside of a part below it. -/
theorem Outside.of_child (h : Outside (a ++ [i]) s s') : Outside a s s' :=
  fun b hb => h b fun hchild => hb (prefix_of_child hchild)

/-- A child leaves the station of its parent alone. -/
theorem Outside.at_parent (h : Outside (a ++ [i]) s s') : s' a = s a := h a not_child_prefix

/-- A child leaves the other children alone. -/
theorem Outside.inside_sibling (h : Outside (a ++ [i]) s s') (hij : i ≠ j) :
    Inside (a ++ [j]) s s' :=
  fun b hb => h b fun hi => hij (child_eq hi hb)

/-- A parent's own station is not below a child. -/
theorem inside_set (slot : Slot α τ) (t : τ) (s : Net α) :
    Inside (a ++ [i]) s ((slot.field a).set t s) := by
  intro b hb
  have hne : b ≠ a := by
    rintro rfl
    exact not_child_prefix hb
  exact put_of_ne hne s _

theorem Inside.child (h : Inside a s s') (i : Nat) : Inside (a ++ [i]) s s' :=
  fun b hb => h b (prefix_of_child hb)

theorem get_set (slot : Slot α τ) (a : Path) (t : τ) (s : Net α) :
    (slot.field a).get ((slot.field a).set t s) = t :=
  (congrArg slot.get (put_self s a _)).trans (slot.get_set t (s a))

/-- The part at `a` gives what `Has` says; what it has left depends on the stations at `a` and
below, and no other is touched. -/
structure Serves (a : Path) (source : Forward (Net α) α) (Has : Net α → List α → Prop) : Prop where
  gives : ∀ s₀, Gives source fun s xs => Has s xs ∧ Outside a s₀ s
  of_inside : ∀ {s s' : Net α} {xs : List α}, Has s xs → Inside a s s' → Has s' xs

/-! ## §3. Parts at their places. -/

/-- A part that works on two places of its station. -/
def pair (a : Path) (first : Slot α τ) (second : Slot α υ)
    (hapart : Field.Apart first.toField second.toField) (s₀ : Net α) : Pair (Net α) τ υ where
  first := first.field a
  second := second.field a
  Holds s t u := (first.field a).get s = t ∧ (second.field a).get s = u ∧ Outside a s₀ s
  first_get h := h.1
  second_get h := h.2.1
  first_set := by
    rintro s t u ⟨-, rfl, hout⟩ t'
    exact ⟨get_set first a t' s,
      (congrArg second.get (put_self s a _)).trans (hapart.get_right t' (s a)), hout.set first t'⟩
  second_set := by
    rintro s t u ⟨rfl, -, hout⟩ u'
    exact ⟨(congrArg first.get (put_self s a _)).trans (hapart.get_left u' (s a)),
      get_set second a u' s, hout.set second u'⟩

/-- A part that has its state in a place of its station, over its first child. -/
def host (a : Path) (slot : Slot α τ) {source : Forward (Net α) α} {Has : Net α → List α → Prop}
    (h : Serves (a ++ [0]) source Has) (s₀ : Net α) : Host (Net α) τ α where
  self := slot.field a
  source := source
  Holds s t xs := (slot.field a).get s = t ∧ Has s xs ∧ Outside a s₀ s
  self_get h := h.1
  self_set := by
    rintro s t xs ⟨-, hs, hout⟩ t'
    exact ⟨get_set slot a t' s, h.of_inside hs (inside_set slot t' s), hout.set slot t'⟩
  gives t := by
    -- All that the child touches is below it, so the state of its parent stays.
    have hstep : ∀ {s s' : Net α} {xs : List α}, (slot.field a).get s = t → Outside a s₀ s →
        Has s' xs ∧ Outside (a ++ [0]) s s' →
          (slot.field a).get s' = t ∧ Has s' xs ∧ Outside a s₀ s' := by
      rintro s s' xs ht hout ⟨hs', hout'⟩
      refine ⟨?_, hs', hout.trans hout'.of_child⟩
      rw [← ht]
      exact congrArg slot.get hout'.at_parent
    constructor
    · rintro s xs ⟨ht, hs, hout⟩
      obtain ⟨s', hask, h'⟩ := (h.gives s).hasNext_apply ⟨hs, outside_refl _ s⟩
      exact ⟨s', hask, hstep ht hout h'⟩
    · rintro s x xs ⟨ht, hs, hout⟩
      obtain ⟨s', hnext, h'⟩ := (h.gives s).next_of_cons ⟨hs, outside_refl _ s⟩
      exact ⟨s', hnext, hstep ht hout h'⟩
    · rintro s ⟨ht, hs, hout⟩
      obtain ⟨s', hnext, h'⟩ := (h.gives s).next_of_nil ⟨hs, outside_refl _ s⟩
      exact ⟨s', hnext, hstep ht hout h'⟩

/-- The sources of `n` children, and no other. -/
def fan (n : Nat) (sources : Fin n → Forward (Net α) α) : Nat → Forward (Net α) α :=
  padded sources .empty

section

variable {n : Nat} {sources : Fin n → Forward (Net α) α} {Has : Fin n → Net α → List α → Prop}

/-- What the children have left, one by one. -/
def Left (n : Nat) (Has : Fin n → Net α → List α → Prop) (s : Net α) (left : Nat → List α) : Prop :=
  ∀ i, if h : i < n then Has ⟨i, h⟩ s (left i) else left i = []

theorem Left.of_lt {s : Net α} {left : Nat → List α} (h : Left n Has s left) {i : Nat}
    (hi : i < n) : Has ⟨i, hi⟩ s (left i) := by
  have := h i
  rwa [dif_pos hi] at this

theorem Left.of_not_lt {s : Net α} {left : Nat → List α} (h : Left n Has s left) {i : Nat}
    (hi : ¬ i < n) : left i = [] := by
  have := h i
  rwa [dif_neg hi] at this

/-- One child has moved on. -/
theorem Left.update {a : Path} (hserves : ∀ i, Serves (a ++ [i.val]) (sources i) (Has i))
    {s s' : Net α} {left : Nat → List α} (h : Left n Has s left) {i : Nat} (hi : i < n)
    {xs : List α} (h' : Has ⟨i, hi⟩ s' xs) (hout : Outside (a ++ [i]) s s') :
    Left n Has s' (Function.update left i xs) := by
  intro j
  by_cases hj : j < n
  · rw [dif_pos hj]
    by_cases hij : i = j
    · subst hij
      rw [Function.update_self]
      exact h'
    · rw [Function.update_of_ne (Ne.symm hij)]
      exact (hserves ⟨j, hj⟩).of_inside (h.of_lt hj) (hout.inside_sibling hij)
  · rw [dif_neg hj]
    have hij : j ≠ i := fun hij => hj (hij ▸ hi)
    rw [Function.update_of_ne hij]
    exact h.of_not_lt hj

theorem Left.of_inside {a : Path} (hserves : ∀ i, Serves (a ++ [i.val]) (sources i) (Has i))
    {s s' : Net α} {left : Nat → List α} (h : Left n Has s left)
    (hin : ∀ i, Inside (a ++ [i]) s s') : Left n Has s' left := by
  intro i
  by_cases hi : i < n
  · rw [dif_pos hi]
    exact (hserves ⟨i, hi⟩).of_inside (h.of_lt hi) (hin i)
  · rw [dif_neg hi]
    exact h.of_not_lt hi

/-- Each child gives what it has left, beside its parent's state and the other children. -/
theorem gives_fan {a : Path} (slot : Slot α τ)
    (hserves : ∀ i, Serves (a ++ [i.val]) (sources i) (Has i)) (s₀ : Net α) (t : τ)
    (left : Nat → List α) (i : Nat) :
    Gives (fan n sources i) fun s xs => (slot.field a).get s = t
      ∧ Left n Has s (Function.update left i xs) ∧ Outside a s₀ s := by
  by_cases hi : i < n
  · have hfan : fan n sources i = sources ⟨i, hi⟩ := padded_of_lt hi
    have hhas : ∀ {s : Net α} {xs : List α}, Left n Has s (Function.update left i xs) →
        Has ⟨i, hi⟩ s xs := by
      intro s xs hs
      have := hs.of_lt hi
      rwa [Function.update_self] at this
    -- All that the child touches is below it, so its parent and the other children stay.
    have hstep : ∀ {s s' : Net α} {xs ys : List α}, (slot.field a).get s = t →
        Left n Has s (Function.update left i xs) → Outside a s₀ s →
        Has ⟨i, hi⟩ s' ys ∧ Outside (a ++ [i]) s s' →
          (slot.field a).get s' = t ∧ Left n Has s' (Function.update left i ys)
            ∧ Outside a s₀ s' := by
      rintro s s' xs ys ht hs hout ⟨hs', hout'⟩
      refine ⟨?_, ?_, hout.trans hout'.of_child⟩
      · rw [← ht]
        exact congrArg slot.get hout'.at_parent
      · have hleft := hs.update hserves hi hs' hout'
        rwa [Function.update_idem] at hleft
    rw [hfan]
    constructor
    · rintro s xs ⟨ht, hs, hout⟩
      obtain ⟨s', hask, h'⟩ :=
        ((hserves ⟨i, hi⟩).gives s).hasNext_apply ⟨hhas hs, outside_refl _ s⟩
      exact ⟨s', hask, hstep ht hs hout h'⟩
    · rintro s x xs ⟨ht, hs, hout⟩
      obtain ⟨s', hnext, h'⟩ :=
        ((hserves ⟨i, hi⟩).gives s).next_of_cons ⟨hhas hs, outside_refl _ s⟩
      exact ⟨s', hnext, hstep ht hs hout h'⟩
    · rintro s ⟨ht, hs, hout⟩
      obtain ⟨s', hnext, h'⟩ :=
        ((hserves ⟨i, hi⟩).gives s).next_of_nil ⟨hhas hs, outside_refl _ s⟩
      exact ⟨s', hnext, hstep ht hs hout h'⟩
  · -- Beyond the last child there is nothing.
    have hfan : fan n sources i = .empty := padded_of_not_lt hi
    have hnil : ∀ {s : Net α} {xs : List α}, Left n Has s (Function.update left i xs) →
        xs = [] := by
      intro s xs hs
      have := hs.of_not_lt hi
      rwa [Function.update_self] at this
    rw [hfan]
    constructor
    · rintro s xs ⟨ht, hs, hout⟩
      obtain rfl := hnil hs
      exact ⟨s, rfl, ht, hs, hout⟩
    · rintro s x xs ⟨-, hs, -⟩
      exact absurd (hnil hs) (List.cons_ne_nil x xs)
    · exact fun {s} h => ⟨s, rfl, h⟩

/-- A part that has its state in a place of its station, over its children. -/
def group (a : Path) (slot : Slot α τ) (h : ∀ i, Serves (a ++ [i.val]) (sources i) (Has i))
    (s₀ : Net α) : Group (Net α) τ Nat α where
  self := slot.field a
  source := fan n sources
  Holds s t left := (slot.field a).get s = t ∧ Left n Has s left ∧ Outside a s₀ s
  self_get h := h.1
  self_set := by
    rintro s t left ⟨-, hs, hout⟩ t'
    exact ⟨get_set slot a t' s, hs.of_inside h fun i => inside_set slot t' s, hout.set slot t'⟩
  gives t left i := gives_fan slot h s₀ t left i

end

/-! ## §4. Parts in their places serve. -/

section

variable {a : Path} {source source' : Forward (Net α) α}

theorem serves_of_pair (first : Slot α τ) (second : Slot α υ)
    (hapart : Field.Apart first.toField second.toField) (Rest : τ → υ → List α → Prop)
    (hgives : ∀ s₀, Gives source ((pair a first second hapart s₀).Has Rest)) :
    Serves a source fun s xs => Rest (first.get (s a)) (second.get (s a)) xs where
  gives s₀ := by
    refine (hgives s₀).congr fun s xs => ⟨fun h => ?_, fun h => ?_⟩
    · exact ⟨_, _, ⟨rfl, rfl, h.2⟩, h.1⟩
    · obtain ⟨t, u, ⟨ht, hu, hout⟩, hrest⟩ := h
      subst ht hu
      exact ⟨hrest, hout⟩
  of_inside := by
    intro s s' xs h hin
    rw [hin a List.prefix_rfl]
    exact h

theorem serves_of_host (slot : Slot α τ) {Has : Net α → List α → Prop}
    (h : Serves (a ++ [0]) source Has) (Rest : τ → List α → List α → Prop)
    (hgives : ∀ s₀, Gives source' ((host a slot h s₀).Has Rest)) :
    Serves a source' fun s ys => ∃ xs, Has s xs ∧ Rest (slot.get (s a)) xs ys where
  gives s₀ := by
    refine (hgives s₀).congr fun s ys => ⟨fun hs => ?_, fun hs => ?_⟩
    · obtain ⟨⟨xs, hxs, hrest⟩, hout⟩ := hs
      exact ⟨_, xs, ⟨rfl, hxs, hout⟩, hrest⟩
    · obtain ⟨t, xs, ⟨ht, hxs, hout⟩, hrest⟩ := hs
      subst ht
      exact ⟨⟨xs, hxs, hrest⟩, hout⟩
  of_inside := by
    rintro s s' ys ⟨xs, hxs, hrest⟩ hin
    rw [← hin a List.prefix_rfl] at hrest
    exact ⟨xs, h.of_inside hxs (hin.child 0), hrest⟩

theorem serves_of_group (slot : Slot α τ) {n : Nat} {sources : Fin n → Forward (Net α) α}
    {Has : Fin n → Net α → List α → Prop}
    (h : ∀ i, Serves (a ++ [i.val]) (sources i) (Has i))
    (Rest : τ → (Nat → List α) → List α → Prop)
    (hgives : ∀ s₀, Gives source' ((group a slot h s₀).Has Rest)) :
    Serves a source' fun s ys => ∃ left, Left n Has s left ∧ Rest (slot.get (s a)) left ys where
  gives s₀ := by
    refine (hgives s₀).congr fun s ys => ⟨fun hs => ?_, fun hs => ?_⟩
    · obtain ⟨⟨left, hleft, hrest⟩, hout⟩ := hs
      exact ⟨_, left, ⟨rfl, hleft, hout⟩, hrest⟩
    · obtain ⟨t, left, ⟨ht, hleft, hout⟩, hrest⟩ := hs
      subst ht
      exact ⟨⟨left, hleft, hrest⟩, hout⟩
  of_inside := by
    rintro s s' ys ⟨left, hleft, hrest⟩ hin
    rw [← hin a List.prefix_rfl] at hrest
    exact ⟨left, hleft.of_inside h hin.child, hrest⟩

end

end Net

end Cursors
