/-
  Cursors.Proofs.Chain.Row
  ────────────────────────
  **A ROW OF LEAVES.**

  A row describes how far a flat chain of leaves has come: the leaves from
  the one in use on, each in its present state, and which leaf gave the last
  element.  Leaves that were left behind are forgotten, except for that one.

      turned    the leaf in front is asked, and left if it denies and is not the last
      next      the leaf in front is stepped
      remove    the leaf that gave the last element removes it

  One source stands for all leaves: what a leaf does is up to its state, and
  leaves of several kinds differ in their states.  Each has a state of its
  own, so that what one of them does never shows in another.  A source that
  answers as a row does is said to follow it (`Follows`), and need not be
  flat.
-/
import Cursors.Proofs.Chain.Removal

namespace Cursors

variable {σ τ Λ α β : Type}

/-! ## §1. Leaves. -/

/-- What an action comes to. -/
def Act.reply (x : Act σ α) (s : σ) : Except Failure α :=
  match x s with
  | .value a _ => .ok a
  | .failure e _ => .error e
  | .unfinished => .error .ended

theorem Act.of_reply {x : Act σ α} {s : σ} (h : ∃ r s', x s = .of r s') :
    x s = .of (x.reply s) (x.leaves s) := by
  obtain ⟨r, s', h⟩ := h
  unfold Act.reply Act.leaves
  rw [h]
  cases r <;> rfl

namespace Forward

/-- Every call comes to something, and a question that was just answered may be asked again without
any effect. -/
structure Steady (leaf : Forward Λ α) : Prop where
  hasNext : ∀ s, ∃ b s', leaf.hasNext s = .value b s' ∧ leaf.hasNext s' = .value b s'
  next : ∀ s, ∃ r s', leaf.next s = .of r s'
  remove : ∀ s, ∃ r s', leaf.remove s = .of r s'

/-- The answer to the question for more. -/
def more (leaf : Forward Λ α) (s : Λ) : Bool :=
  match leaf.hasNext s with
  | .value b _ => b
  | _ => false

/-- The state in which the question for more leaves a leaf. -/
def asked (leaf : Forward Λ α) : Λ → Λ := leaf.hasNext.leaves

/-- States of a leaf that has denied that it has more, and of which nothing was asked since but to
remove. -/
inductive Spent (leaf : Forward Λ α) : Λ → Prop where
  | denied {s s' : Λ} : leaf.hasNext s = .value false s' → Spent leaf s'
  | removed {s s' : Λ} {r : Except Failure Unit} :
      Spent leaf s → leaf.remove s = .of r s' → Spent leaf s'

/-- Once a leaf has denied it stays at its end. -/
def Lasting (leaf : Forward Λ α) : Prop :=
  ∀ s, leaf.Spent s → leaf.hasNext s = .value false s ∧ leaf.next s = .failure .ended s

section

variable {leaf : Forward Λ α}

theorem Steady.hasNext_eq (h : leaf.Steady) (s : Λ) :
    leaf.hasNext s = .value (leaf.more s) (leaf.asked s) := by
  obtain ⟨b, s', hask, -⟩ := h.hasNext s
  unfold more asked Act.leaves
  rw [hask]

theorem Steady.hasNext_asked (h : leaf.Steady) (s : Λ) :
    leaf.hasNext (leaf.asked s) = .value (leaf.more s) (leaf.asked s) := by
  obtain ⟨b, s', hask, hagain⟩ := h.hasNext s
  unfold more asked Act.leaves
  rw [hask]
  exact hagain

theorem Steady.more_asked (h : leaf.Steady) (s : Λ) : leaf.more (leaf.asked s) = leaf.more s := by
  rw [more, h.hasNext_asked]

theorem Steady.asked_asked (h : leaf.Steady) (s : Λ) :
    leaf.asked (leaf.asked s) = leaf.asked s := by
  rw [asked, Act.leaves, ← asked, h.hasNext_asked]

theorem Steady.spent_asked (h : leaf.Steady) {s : Λ} (hmore : leaf.more s = false) :
    leaf.Spent (leaf.asked s) := by
  have hask := h.hasNext_eq s
  rw [hmore] at hask
  exact .denied hask

theorem Steady.next_eq (h : leaf.Steady) (s : Λ) :
    leaf.next s = .of (leaf.next.reply s) (leaf.next.leaves s) := Act.of_reply (h.next s)

theorem Steady.remove_eq (h : leaf.Steady) (s : Λ) :
    leaf.remove s = .of (leaf.remove.reply s) (leaf.remove.leaves s) := Act.of_reply (h.remove s)

theorem Steady.spent_removed (h : leaf.Steady) {s : Λ} (hspent : leaf.Spent s) :
    leaf.Spent (leaf.remove.leaves s) :=
  .removed hspent (h.remove_eq s)

theorem Lasting.more_eq (h : leaf.Lasting) {s : Λ} (hspent : leaf.Spent s) :
    leaf.more s = false := by
  rw [more, (h s hspent).1]

theorem Lasting.asked_eq (h : leaf.Lasting) {s : Λ} (hspent : leaf.Spent s) :
    leaf.asked s = s := by
  rw [asked, Act.leaves, (h s hspent).1]

theorem Lasting.reply_eq (h : leaf.Lasting) {s : Λ} (hspent : leaf.Spent s) :
    leaf.next.reply s = .error .ended := by
  rw [Act.reply, (h s hspent).2]

theorem Lasting.leaves_eq (h : leaf.Lasting) {s : Λ} (hspent : leaf.Spent s) :
    leaf.next.leaves s = s := by
  rw [Act.leaves, (h s hspent).2]

end

end Forward

/-! ## §2. Turning to the leaf to be used. -/

/-- Which leaf gave the last element, if that may still be removed. -/
inductive Giver (Λ : Type) where
  | nobody
  | front
  /-- One that was left since, in this state. -/
  | behind (s : Λ)

/-- After a removal nothing can be removed; a removal that failed may be tried again. -/
def Giver.after (giver : Giver Λ) : Except Failure Unit → Giver Λ
  | .ok _ => .nobody
  | .error _ => giver

/-- The leaves from the one in use on, and which leaf gave the last element. -/
structure Row (Λ : Type) where
  ahead : List Λ
  giver : Giver Λ := .nobody

namespace Row

variable (leaf : Forward Λ α)

/-- The leaves from the first one on that has more or is the last. -/
def turn : List Λ → List Λ
  | [] => []
  | [s] => [leaf.asked s]
  | s :: s' :: rest => if leaf.more s then leaf.asked s :: s' :: rest else turn (s' :: rest)

/-- Where the leaf in front comes to be by that, if it gave the last element. -/
def leave : List Λ → Giver Λ → Giver Λ
  | s :: _ :: _, .front => if leaf.more s then .front else .behind (leaf.asked s)
  | _, giver => giver

/-- The row, turned to the leaf to be used. -/
def turned (r : Row Λ) : Row Λ := ⟨turn leaf r.ahead, leave leaf r.ahead r.giver⟩

/-- Whether the leaf in front has more. -/
def stocked (xs : List Λ) : Bool := xs.head?.any leaf.more

/-- These leaves, as far as turning to the one to be used goes; none of them gave an element. -/
def Waits (r : Row Λ) (xs : List Λ) : Prop :=
  r.giver = .nobody ∧ turn leaf r.ahead = turn leaf xs

/-- The leaf that gave the last element. -/
def touched (r : Row Λ) : Option Λ :=
  match r.giver with
  | .nobody => none
  | .front => r.ahead.head?
  | .behind s => some s

/-- The same leaf gave the last element, and is no longer in front. -/
def left (r : Row Λ) : Giver Λ :=
  match r.touched with
  | none => .nobody
  | some s => .behind s

section

variable {leaf} {r : Row Λ} {xs ys : List Λ} {s : Λ} {g : Giver Λ}

theorem turn_eq_nil_iff : turn leaf xs = [] ↔ xs = [] := by
  fun_induction turn leaf xs with
  | case1 => exact Iff.rfl
  | case2 s => simp
  | case3 s s' rest h => simp
  | case4 s s' rest h ih => simpa using ih

theorem turn_cons_of_more (h : leaf.more s = true) (xs : List Λ) :
    turn leaf (s :: xs) = leaf.asked s :: xs := by
  cases xs with
  | nil => rfl
  | cons s' rest => exact if_pos h

theorem turn_cons_of_denied (h : leaf.more s = false) (hxs : xs ≠ []) :
    turn leaf (s :: xs) = turn leaf xs := by
  cases xs with
  | nil => exact absurd rfl hxs
  | cons s' rest => exact if_neg (by rw [h]; exact Bool.false_ne_true)

theorem leave_of_ne_front (h : g ≠ .front) (xs : List Λ) : leave leaf xs g = g := by
  unfold leave
  split
  · exact absurd rfl h
  · rfl

theorem leave_nobody (xs : List Λ) : leave leaf xs .nobody = .nobody :=
  leave_of_ne_front (by simp) xs

theorem leave_cons_of_more (h : leaf.more s = true) (xs : List Λ) (g : Giver Λ) :
    leave leaf (s :: xs) g = g := by
  unfold leave
  split
  · next heq =>
      obtain ⟨rfl, -⟩ := List.cons.inj heq
      exact if_pos h
  · rfl

theorem leave_cons_of_denied (h : leaf.more s = false) (hxs : xs ≠ []) :
    leave leaf (s :: xs) .front = .behind (leaf.asked s) := by
  cases xs with
  | nil => exact absurd rfl hxs
  | cons s' rest => exact if_neg (by rw [h]; exact Bool.false_ne_true)

/-- Turning the first leaves comes before turning all of them. -/
theorem turn_turn_append (h : leaf.Steady) (xs ys : List Λ) :
    turn leaf (turn leaf xs ++ ys) = turn leaf (xs ++ ys) := by
  fun_induction turn leaf xs with
  | case1 => rfl
  | case2 s =>
      cases ys with
      | nil => exact congrArg (· :: []) (h.asked_asked s)
      | cons s' rest =>
          show (if leaf.more (leaf.asked s) then leaf.asked (leaf.asked s) :: s' :: rest
            else turn leaf (s' :: rest)) = _
          rw [h.more_asked, h.asked_asked]
          rfl
  | case3 s s' rest hmore =>
      show turn leaf (leaf.asked s :: (s' :: rest ++ ys)) = turn leaf (s :: (s' :: rest ++ ys))
      rw [turn_cons_of_more hmore, turn_cons_of_more ((h.more_asked s).trans hmore), h.asked_asked]
  | case4 s s' rest hmore ih =>
      have hdenied : leaf.more s = false := Bool.eq_false_iff.mpr hmore
      have hcons : turn leaf (s :: s' :: rest ++ ys) = turn leaf (s' :: rest ++ ys) :=
        turn_cons_of_denied hdenied (by simp)
      rw [ih, hcons]

theorem leave_turn_append (h : leaf.Steady) (xs ys : List Λ) (g : Giver Λ) :
    leave leaf (turn leaf xs ++ ys) (leave leaf xs g) = leave leaf (xs ++ ys) g := by
  by_cases hfront : g = .front
  · subst hfront
    match xs with
    | [] => rfl
    | [s] =>
        show leave leaf (leaf.asked s :: ys) .front = leave leaf (s :: ys) .front
        by_cases hys : ys = []
        · subst hys
          rfl
        · cases hmore : leaf.more s with
          | true =>
              rw [leave_cons_of_more hmore, leave_cons_of_more ((h.more_asked s).trans hmore)]
          | false =>
              rw [leave_cons_of_denied hmore hys,
                leave_cons_of_denied ((h.more_asked s).trans hmore) hys, h.asked_asked]
    | s :: s' :: rest =>
        rw [List.cons_append]
        cases hmore : leaf.more s with
        | true =>
            rw [turn_cons_of_more hmore, leave_cons_of_more hmore, leave_cons_of_more hmore,
              List.cons_append, leave_cons_of_more ((h.more_asked s).trans hmore)]
        | false =>
            rw [leave_cons_of_denied hmore (by simp), leave_cons_of_denied hmore (by simp)]
            exact leave_of_ne_front (by simp) _
  · rw [leave_of_ne_front hfront, leave_of_ne_front hfront, leave_of_ne_front hfront]

/-- As far as turning goes, leaves may be turned before others are put behind them. -/
theorem turn_append_congr (h : leaf.Steady) {xs' : List Λ} (hxs : turn leaf xs = turn leaf xs')
    (ys : List Λ) : turn leaf (xs ++ ys) = turn leaf (xs' ++ ys) := by
  rw [← turn_turn_append h, hxs, turn_turn_append h]

theorem turned_turned (h : leaf.Steady) (r : Row Λ) :
    (r.turned leaf).turned leaf = r.turned leaf := by
  have hturn := turn_turn_append h r.ahead []
  have hleave := leave_turn_append h r.ahead [] r.giver
  rw [List.append_nil, List.append_nil] at hturn hleave
  exact congrArg₂ Row.mk hturn hleave

theorem length_turn_le (xs : List Λ) : (turn leaf xs).length ≤ xs.length := by
  fun_induction turn leaf xs with
  | case1 => exact Nat.le_refl _
  | case2 s => exact Nat.le_refl _
  | case3 s s' rest h => exact Nat.le_refl _
  | case4 s s' rest h ih => exact Nat.le_succ_of_le ih

/-- Leaves that were turned to the one to be used have more in front, or the last in front. -/
theorem turn_eq_self_cases (h : turn leaf xs = xs) :
    xs = [] ∨ (∃ s rest, xs = s :: rest ∧ leaf.more s = true ∧ leaf.asked s = s)
      ∨ ∃ s, xs = [s] ∧ leaf.more s = false ∧ leaf.asked s = s := by
  cases xs with
  | nil => exact .inl rfl
  | cons s rest =>
      cases hmore : leaf.more s with
      | true =>
          rw [turn_cons_of_more hmore] at h
          exact .inr (.inl ⟨s, rest, rfl, hmore, (List.cons.inj h).1⟩)
      | false =>
          by_cases hrest : rest = []
          · subst hrest
            exact .inr (.inr ⟨s, rfl, hmore, (List.cons.inj h).1⟩)
          · -- The leaf in front would have been left.
            rw [turn_cons_of_denied hmore hrest] at h
            have hle : (turn leaf rest).length ≤ rest.length := length_turn_le rest
            rw [h, List.length_cons] at hle
            exact absurd hle (Nat.not_succ_le_self _)

theorem turn_append_of_stocked (hturn : turn leaf xs = xs) (h : stocked leaf xs = true)
    (ys : List Λ) : turn leaf (xs ++ ys) = xs ++ ys := by
  obtain rfl | ⟨s, rest, rfl, hmore, hasked⟩ | ⟨s, rfl, hmore, -⟩ := turn_eq_self_cases hturn
  · exact nomatch h
  · rw [List.cons_append, turn_cons_of_more hmore, hasked]
  · exact nomatch hmore.symm.trans h

theorem leave_append_of_stocked (h : stocked leaf xs = true) (ys : List Λ) (g : Giver Λ) :
    leave leaf (xs ++ ys) g = g := by
  cases xs with
  | nil => exact nomatch h
  | cons s rest => exact leave_cons_of_more h _ g

/-- A leaf that has denied is left once others follow it. -/
theorem leave_cons_eq_left (hmore : leaf.more s = false) (hasked : leaf.asked s = s)
    (hxs : xs ≠ []) (g : Giver Λ) : leave leaf (s :: xs) g = (Row.mk (s :: xs) g).left := by
  cases g with
  | nobody => exact leave_of_ne_front (by simp) _
  | behind s' => exact leave_of_ne_front (by simp) _
  | front =>
      rw [leave_cons_of_denied hmore hxs, hasked]
      rfl

theorem touched_of_ne_front (h : g ≠ .front) (xs ys : List Λ) :
    (Row.mk xs g).touched = (Row.mk ys g).touched := by
  cases g with
  | nobody => rfl
  | behind s => rfl
  | front => exact absurd rfl h

theorem touched_left (r : Row Λ) (xs : List Λ) : (Row.mk xs r.left).touched = r.touched := by
  unfold left
  cases r.touched <;> rfl

theorem left_ne_front (r : Row Λ) : r.left ≠ .front := by
  unfold left
  cases r.touched <;> simp

theorem left_of_nobody (h : r.giver = .nobody) : r.left = .nobody := by
  rw [left, touched, h]

theorem touched_append (h : xs = [] → g ≠ .front) (ys : List Λ) :
    (Row.mk (xs ++ ys) g).touched = (Row.mk xs g).touched := by
  cases g with
  | nobody => rfl
  | behind s => rfl
  | front =>
      cases xs with
      | nil => exact absurd rfl (h rfl)
      | cons s rest => rfl

/-- A leaf that gave the last element is either in front or was left behind. -/
theorem touched_eq_some_iff :
    r.touched = some s ↔ (∃ xs, r = ⟨s :: xs, .front⟩) ∨ r.giver = .behind s := by
  obtain ⟨xs, g⟩ := r
  cases g with
  | nobody => simp [touched]
  | behind s' => simp [touched]
  | front => cases xs <;> simp [touched]

theorem giver_ne_nobody (h : r.touched = some s) : r.giver ≠ .nobody := by
  intro hgiver
  rw [touched, hgiver] at h
  cases h

/-- The leaf in front may change its state. -/
theorem touched_cons (h : g ≠ .nobody) (s : Λ) :
    ∃ s', ∀ xs, (Row.mk (s :: xs) g).touched = some s' := by
  cases g with
  | nobody => exact absurd rfl h
  | front => exact ⟨s, fun _ => rfl⟩
  | behind s' => exact ⟨s', fun _ => rfl⟩

/-- Turning does not make the leaf that gave the last element forgotten. -/
theorem touched_turned (h : r.touched = some s) : ∃ s', (r.turned leaf).touched = some s' := by
  obtain ⟨xs, rfl⟩ | hbehind := touched_eq_some_iff.mp h
  · unfold turned
    cases hmore : leaf.more s with
    | true =>
        rw [turn_cons_of_more hmore, leave_cons_of_more hmore]
        exact ⟨_, rfl⟩
    | false =>
        cases xs with
        | nil => exact ⟨_, rfl⟩
        | cons s' rest =>
            rw [leave_cons_of_denied hmore (by simp)]
            exact ⟨_, rfl⟩
  · unfold turned
    rw [hbehind, leave_of_ne_front (by simp)]
    exact ⟨s, rfl⟩

end

/-! ## §3. Calls. -/

/-- Step the leaf in front. -/
def next (r : Row Λ) : Except Failure α × Row Λ :=
  match r.ahead with
  | [] => (.error .ended, r)
  | s :: rest =>
      match leaf.next.reply s with
      | .ok x => (.ok x, ⟨leaf.next.leaves s :: rest, .front⟩)
      | .error e => (.error e, ⟨leaf.next.leaves s :: rest, r.giver⟩)

/-- Have the leaf that gave the last element remove it. -/
def remove (r : Row Λ) : Except Failure Unit × Row Λ :=
  match r.giver, r.ahead with
  | .behind s, xs =>
      (leaf.remove.reply s, ⟨xs, (Giver.behind (leaf.remove.leaves s)).after (leaf.remove.reply s)⟩)
  | .front, s :: rest =>
      (leaf.remove.reply s,
        ⟨leaf.remove.leaves s :: rest, Giver.front.after (leaf.remove.reply s)⟩)
  | _, _ => (.error (.notMoved .remove false), r)

/-- What a call answers, and where it leads. -/
def respond (r : Row Λ) : Pull → Except Failure (Answer α) × Row Λ
  | .hasNext => (.ok (.truth (stocked leaf (r.turned leaf).ahead)), r.turned leaf)
  | .next => (((r.turned leaf).next leaf).1.map .element, ((r.turned leaf).next leaf).2)
  | .remove => ((r.remove leaf).1.map fun _ => .done, (r.remove leaf).2)

section

variable {leaf} {r r' : Row Λ} {xs ys : List Λ} {s : Λ} {g : Giver Λ}

theorem next_nil (g : Giver Λ) : (Row.mk [] g).next leaf = (.error .ended, ⟨[], g⟩) := rfl

theorem next_of_ok {x : α} (h : leaf.next.reply s = .ok x) (xs : List Λ) (g : Giver Λ) :
    (Row.mk (s :: xs) g).next leaf = (.ok x, ⟨leaf.next.leaves s :: xs, .front⟩) := by
  simp only [next, h]

theorem next_of_error {e : Failure} (h : leaf.next.reply s = .error e) (xs : List Λ)
    (g : Giver Λ) :
    (Row.mk (s :: xs) g).next leaf = (.error e, ⟨leaf.next.leaves s :: xs, g⟩) := by
  simp only [next, h]

theorem remove_of_nobody (h : r.giver = .nobody) :
    r.remove leaf = (.error (.notMoved .remove false), r) := by
  obtain ⟨xs, g⟩ := r
  subst h
  rfl

theorem remove_of_behind (h : r.giver = .behind s) :
    r.remove leaf = (leaf.remove.reply s,
      ⟨r.ahead, (Giver.behind (leaf.remove.leaves s)).after (leaf.remove.reply s)⟩) := by
  obtain ⟨xs, g⟩ := r
  subst h
  rfl

theorem remove_of_front (xs : List Λ) :
    (Row.mk (s :: xs) .front).remove leaf = (leaf.remove.reply s,
      ⟨leaf.remove.leaves s :: xs, Giver.front.after (leaf.remove.reply s)⟩) := rfl

theorem remove_fst_of_touched (h : r.touched = some s) :
    (r.remove leaf).1 = leaf.remove.reply s := by
  obtain ⟨xs, rfl⟩ | hbehind := touched_eq_some_iff.mp h
  · rw [remove_of_front]
  · rw [remove_of_behind hbehind]

theorem giver_removed_of_ok (h : r.touched = some s) {a : Unit}
    (hok : leaf.remove.reply s = .ok a) : (r.remove leaf).2.giver = .nobody := by
  obtain ⟨xs, rfl⟩ | hbehind := touched_eq_some_iff.mp h
  · rw [remove_of_front, hok]
    rfl
  · rw [remove_of_behind hbehind, hok]
    rfl

theorem touched_removed_of_error (h : r.touched = some s) {e : Failure}
    (herror : leaf.remove.reply s = .error e) :
    (r.remove leaf).2.touched = some (leaf.remove.leaves s) := by
  obtain ⟨xs, rfl⟩ | hbehind := touched_eq_some_iff.mp h
  · rw [remove_of_front, herror]
    rfl
  · rw [remove_of_behind hbehind, herror]
    rfl

theorem ahead_removed_of_ne_front (h : r.giver ≠ .front) : (r.remove leaf).2.ahead = r.ahead := by
  obtain ⟨xs, g⟩ := r
  cases g with
  | front => exact absurd rfl h
  | nobody => rfl
  | behind s => rfl

theorem giver_removed_ne_front (h : r.giver ≠ .front) : (r.remove leaf).2.giver ≠ .front := by
  obtain ⟨xs, g⟩ := r
  cases g with
  | front => exact absurd rfl h
  | nobody => exact h
  | behind s =>
      rw [remove_of_behind rfl]
      cases leaf.remove.reply s <;> exact nofun

/-- Leaves further on do not show in a removal. -/
theorem remove_append (h : xs = [] → g ≠ .front) (ys : List Λ) :
    (Row.mk (xs ++ ys) g).remove leaf
      = (((Row.mk xs g).remove leaf).1, ⟨((Row.mk xs g).remove leaf).2.ahead ++ ys,
          ((Row.mk xs g).remove leaf).2.giver⟩) := by
  cases g with
  | nobody => rfl
  | behind s => rfl
  | front =>
      cases xs with
      | nil => exact absurd rfl (h rfl)
      | cons s rest => rfl

theorem turned_ahead_eq_nil_iff : (r.turned leaf).ahead = [] ↔ r.ahead = [] := turn_eq_nil_iff

theorem next_ahead_eq_nil_iff : (r.next leaf).2.ahead = [] ↔ r.ahead = [] := by
  obtain ⟨xs, g⟩ := r
  cases xs with
  | nil => exact Iff.rfl
  | cons s rest =>
      cases hreply : leaf.next.reply s with
      | ok x => simp [next_of_ok hreply]
      | error e => simp [next_of_error hreply]

theorem remove_ahead_eq_nil_iff : (r.remove leaf).2.ahead = [] ↔ r.ahead = [] := by
  obtain ⟨xs, g⟩ := r
  cases g with
  | nobody => exact Iff.rfl
  | behind s => exact Iff.rfl
  | front =>
      cases xs with
      | nil => exact Iff.rfl
      | cons s rest => simp [remove_of_front]

end

end Row

/-! ## §4. Sources that do as a row does. -/

/-- A source that answers as a row does, if a step is asked of it only once it was turned to the
leaf to be used, and a removal only once an element was given. -/
structure Follows (leaf : Forward Λ α) (source : Forward τ α) (Stands : τ → Row Λ → Prop) :
    Prop where
  giver_of_nil : ∀ {t r}, Stands t r → r.ahead = [] → r.giver = .nobody
  hasNext : ∀ {t r}, Stands t r →
    ∃ t', source.hasNext t = .value (Row.stocked leaf (r.turned leaf).ahead) t'
      ∧ Stands t' (r.turned leaf)
  next : ∀ {t r}, Stands t r → r.turned leaf = r →
    ∃ t', source.next t = .of (r.next leaf).1 t' ∧ Stands t' (r.next leaf).2
  remove : ∀ {t r}, Stands t r → r.giver ≠ .nobody →
    ∃ t', source.remove t = .of (r.remove leaf).1 t' ∧ Stands t' (r.remove leaf).2

/-- A leaf is a row of its own. -/
theorem follows_leaf {leaf : Forward Λ α} (h : leaf.Steady) :
    Follows leaf leaf fun s r => ∃ g, r = ⟨[s], g⟩ ∧ ∀ s', g ≠ .behind s' where
  giver_of_nil := by
    rintro s r ⟨g, rfl, -⟩ hnil
    cases hnil
  hasNext := by
    rintro s r ⟨g, rfl, hg⟩
    refine ⟨leaf.asked s, ?_, g, rfl, hg⟩
    show leaf.hasNext s = Outcome.value (leaf.more (leaf.asked s)) _
    rw [h.more_asked]
    exact h.hasNext_eq s
  next := by
    rintro s r ⟨g, rfl, hg⟩ -
    refine ⟨leaf.next.leaves s, ?_⟩
    rw [h.next_eq s]
    cases hreply : leaf.next.reply s with
    | ok x =>
        rw [Row.next_of_ok hreply]
        exact ⟨rfl, .front, rfl, nofun⟩
    | error e =>
        rw [Row.next_of_error hreply]
        exact ⟨rfl, g, rfl, hg⟩
  remove := by
    rintro s r ⟨g, rfl, hg⟩ hgiver
    cases g with
    | nobody => exact absurd rfl hgiver
    | behind s' => exact absurd rfl (hg s')
    | front =>
        refine ⟨leaf.remove.leaves s, h.remove_eq s, _, rfl, ?_⟩
        cases leaf.remove.reply s <;> exact nofun

end Cursors
