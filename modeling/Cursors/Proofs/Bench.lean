/-
  Cursors.Proofs.Bench
  ────────────────────
  **LOOKING FOR A MATCH ALONG A LIST.**

  A bench holds a list, a cursor in it and the state of whatever is built
  on the cursor.  The predicate is pure: what it comes to on an element is
  given by `verdict`, a truth value or a failure, and a call of it changes
  nothing.  Main statement (`search_apply`): a search with enough fuel in
  direction `d` comes to

      look verdict (z.toward d)

  and leaves the cursor behind the `passed verdict (z.toward d)` elements
  that it had to cross for that: up to the first match, up to the first
  element on which the predicate fails, or all of them.
-/
import Cursors.Proofs.Cursor

namespace Cursors

variable {σ α ρ : Type}

/-! ## §1. Pure predicates. -/

/-- The outcome that leaves the state as it is given. -/
def Outcome.of (r : Except Failure α) (s : σ) : Outcome σ α :=
  match r with
  | .ok a => .value a s
  | .error e => .failure e s

theorem Outcome.of_inj {r r' : Except Failure α} {s s' : σ} (h : Outcome.of r s = .of r' s') :
    r = r' ∧ s = s' := by
  cases r <;> cases r' <;> simp_all [Outcome.of]

@[simp] theorem Act.ofExcept_apply (r : Except Failure α) (s : σ) :
    Act.ofExcept r s = Outcome.of r s := by
  cases r <;> rfl

/-- The predicate that comes to `verdict x` on `x` and changes nothing. -/
def judge (verdict : α → Except Failure Bool) (x : α) : Act σ Bool := Act.ofExcept (verdict x)

/-- The predicate that accepts the even numbers, for examples. -/
def even (x : Nat) : Except Failure Bool := .ok (x % 2 == 0)

/-- What a move makes of a look. -/
def taken : Except Failure (Option α) → Except Failure α
  | .ok (some x) => .ok x
  | .ok none => .error .ended
  | .error e => .error e

/-- The match that a look found. -/
def sighted : Except Failure (Option α) → Option α
  | .ok x => x
  | .error _ => none

section

variable (verdict : α → Except Failure Bool)

/-- Whether an element matches; one on which the predicate fails does not. -/
def matching (x : α) : Bool :=
  match verdict x with
  | .ok b => b
  | .error _ => false

/-- The first match, unless the predicate fails on an element before it. -/
def look : List α → Except Failure (Option α)
  | [] => .ok none
  | y :: ys =>
      match verdict y with
      | .ok true => .ok (some y)
      | .ok false => look ys
      | .error e => .error e

/-- The number of elements on which the predicate is called to look for the first match. -/
def passed : List α → Nat
  | [] => 0
  | y :: ys =>
      match verdict y with
      | .ok false => passed ys + 1
      | _ => 1

end

variable {verdict : α → Except Failure Bool} {y : α} {ys : List α}

theorem matching_of_match (hy : verdict y = .ok true) : matching verdict y = true := by
  simp [matching, hy]

theorem matching_of_rejected (hy : verdict y = .ok false) :
    matching verdict y = false := by
  simp [matching, hy]

theorem matching_of_error {e : Failure} (hy : verdict y = .error e) :
    matching verdict y = false := by
  simp [matching, hy]

@[simp] theorem passed_nil : passed verdict [] = 0 := rfl

theorem look_cons_of_match (hy : verdict y = .ok true) :
    look verdict (y :: ys) = .ok (some y) := by
  simp [look, hy]

theorem look_cons_of_rejected (hy : verdict y = .ok false) :
    look verdict (y :: ys) = look verdict ys := by
  simp [look, hy]

theorem look_cons_of_error {e : Failure} (hy : verdict y = .error e) :
    look verdict (y :: ys) = .error e := by
  simp [look, hy]

theorem passed_cons_of_match (hy : verdict y = .ok true) : passed verdict (y :: ys) = 1 := by
  simp [passed, hy]

theorem passed_cons_of_rejected (hy : verdict y = .ok false) :
    passed verdict (y :: ys) = passed verdict ys + 1 := by
  simp [passed, hy]

theorem passed_cons_of_error {e : Failure} (hy : verdict y = .error e) :
    passed verdict (y :: ys) = 1 := by
  simp [passed, hy]

theorem verdict_cases (verdict : α → Except Failure Bool) (y : α) :
    verdict y = .ok true ∨ verdict y = .ok false ∨ ∃ e, verdict y = .error e := by
  cases verdict y with
  | error e => exact .inr (.inr ⟨e, rfl⟩)
  | ok b =>
      cases b with
      | true => exact .inl rfl
      | false => exact .inr (.inl rfl)

/-- The three ends of looking: a match after rejected elements, no match at all, or a failure
after rejected elements. -/
theorem look_cases (verdict : α → Except Failure Bool) (ys : List α) :
    (∃ pre x post, ys = pre ++ x :: post ∧ (∀ y ∈ pre, verdict y = .ok false)
        ∧ verdict x = .ok true ∧ look verdict ys = .ok (some x)
        ∧ passed verdict ys = pre.length + 1)
      ∨ ((∀ y ∈ ys, verdict y = .ok false) ∧ look verdict ys = .ok none
        ∧ passed verdict ys = ys.length)
      ∨ (∃ pre x post e, ys = pre ++ x :: post ∧ (∀ y ∈ pre, verdict y = .ok false)
        ∧ verdict x = .error e ∧ look verdict ys = .error e
        ∧ passed verdict ys = pre.length + 1) := by
  induction ys with
  | nil => exact .inr (.inl ⟨by simp, rfl, rfl⟩)
  | cons y ys ih =>
      obtain hy | hy | ⟨e, hy⟩ := verdict_cases verdict y
      · exact .inl ⟨[], y, ys, rfl, by simp, hy, look_cons_of_match hy,
          passed_cons_of_match hy⟩
      · have hcons : ∀ {pre : List α}, (∀ w ∈ pre, verdict w = .ok false) →
            ∀ w ∈ y :: pre, verdict w = .ok false := by
          intro pre hpre w hw
          rcases List.mem_cons.mp hw with rfl | hw
          · exact hy
          · exact hpre w hw
        rw [look_cons_of_rejected hy, passed_cons_of_rejected hy]
        obtain ⟨pre, x, post, rfl, hpre, hx, hl, hp⟩ | ⟨hall, hl, hp⟩ |
          ⟨pre, x, post, e, rfl, hpre, hx, hl, hp⟩ := ih
        · exact .inl ⟨y :: pre, x, post, rfl, hcons hpre, hx, hl, by simp [hp]⟩
        · exact .inr (.inl ⟨hcons hall, hl, by simp [hp]⟩)
        · exact .inr (.inr ⟨y :: pre, x, post, e, rfl, hcons hpre, hx, hl, by simp [hp]⟩)
      · exact .inr (.inr ⟨[], y, ys, e, rfl, by simp, hy, look_cons_of_error hy,
          passed_cons_of_error hy⟩)

theorem passed_le_length (verdict : α → Except Failure Bool) (ys : List α) :
    passed verdict ys ≤ ys.length := by
  obtain ⟨pre, x, post, rfl, -, -, -, hp⟩ | ⟨-, -, hp⟩ | ⟨pre, x, post, e, rfl, -, -, -, hp⟩ :=
    look_cases verdict ys <;> rw [hp] <;> simp

theorem filter_of_rejected (hall : ∀ y ∈ ys, verdict y = .ok false) :
    ys.filter (matching verdict) = [] := by
  rw [List.filter_eq_nil_iff]
  intro y hy
  rw [matching_of_rejected (hall y hy)]
  exact Bool.false_ne_true

/-- The first match heads the matches. -/
theorem filter_of_match {pre post : List α} {x : α} (hys : ys = pre ++ x :: post)
    (hpre : ∀ y ∈ pre, verdict y = .ok false) (hx : verdict x = .ok true) :
    ys.filter (matching verdict) = x :: post.filter (matching verdict) := by
  rw [hys, List.filter_append, filter_of_rejected hpre, List.nil_append,
    List.filter_cons_of_pos (matching_of_match hx)]

theorem skipped_of_rejected (hall : ∀ y ∈ ys, verdict y = .ok false) (n : Nat) :
    ∀ y ∈ ys.take n, matching verdict y = false :=
  fun y hy => matching_of_rejected (hall y (List.mem_of_mem_take hy))

theorem skipped_of_error {pre post : List α} {x : α} {e : Failure}
    (hys : ys = pre ++ x :: post) (hpre : ∀ y ∈ pre, verdict y = .ok false)
    (hx : verdict x = .error e) : ∀ y ∈ ys.take (pre.length + 1), matching verdict y = false := by
  intro y hy
  rw [hys, List.take_length_add_append, List.take_succ_cons, List.mem_append] at hy
  rcases hy with hy | hy
  · exact matching_of_rejected (hpre y hy)
  · rw [List.take_zero, List.mem_singleton] at hy
    rw [hy]
    exact matching_of_error hx

/-! ## §2. Benches. -/

/-- A list, a cursor in it, and the state of what is built on the cursor. -/
structure Bench (α ρ : Type) where
  items : List α
  cursor : Cursor
  top : ρ
  deriving Repr, DecidableEq

namespace Bench

/-- The list. -/
def list : Field (Bench α ρ) (List α) where
  get := Bench.items
  set xs b := { b with items := xs }

/-- The cursor. -/
def here : Field (Bench α ρ) Cursor where
  get := Bench.cursor
  set c b := { b with cursor := c }

/-- The state of what is built on the cursor. -/
def self : Field (Bench α ρ) ρ where
  get := Bench.top
  set t b := { b with top := t }

/-- The cursor as a source. -/
def source : TwoWay (Bench α ρ) α := Cursor.twoWay here (.ofList list)

theorem self_get (b : Bench α ρ) : self.get b = b.top := rfl

theorem self_set (b : Bench α ρ) (t : ρ) : self.set t b = { b with top := t } := rfl

theorem here_apart_list : (here (α := α) (ρ := ρ)).Apart list := ⟨fun _ _ => rfl, fun _ _ => rfl⟩

/-- The cursor of the bench stands in the gap of `z`. -/
structure Shows (b : Bench α ρ) (bound : Nat) (z : Zipper α) : Prop where
  items_eq : b.items = z.items
  spans : b.cursor.Spans bound z

variable {b : Bench α ρ} {bound : Nat} {z : Zipper α}

theorem Shows.list_get (h : b.Shows bound z) : list.get b = z.items := h.items_eq

theorem Shows.here_get (h : b.Shows bound z) : (here.get b).Spans bound z := h.spans

/-- What is built on the cursor does not show in the zipper. -/
theorem Shows.withTop (h : b.Shows bound z) (t : ρ) : Shows { b with top := t } bound z :=
  ⟨h.items_eq, h.spans⟩

theorem hasMore_apply (h : b.Shows bound z) (d : Direction) :
    source.hasMore d b = .value (!(z.toward d).isEmpty) b :=
  Cursor.hasMore_apply h.list_get h.here_get d

theorem step_of_toward_cons (h : b.Shows bound z) {d : Direction} {x : α} {rest : List α}
    (hx : z.toward d = x :: rest) :
    ∃ b', source.step d b = .value x b' ∧ b'.Shows bound (z.cross d 1) ∧ b'.top = b.top := by
  obtain ⟨c, hstep, hc⟩ := Cursor.step_of_toward_cons here_apart_list h.list_get h.here_get hx
  exact ⟨_, hstep, ⟨h.items_eq.trans (z.items_cross d 1).symm, hc⟩, rfl⟩

theorem remove_of_untouched (h : b.Shows bound z) (hz : z.touched = none) :
    source.remove b = .failure (.notMoved .remove true) b :=
  Cursor.remove_of_untouched h.here_get hz

theorem remove_of_touched (h : b.Shows bound z) {i : Nat} (hi : z.touched = some i) :
    ∃ b', source.remove b = .value () b' ∧ b'.Shows bound z.removed ∧ b'.top = b.top := by
  obtain ⟨c, hremove, hc⟩ := Cursor.remove_of_touched here_apart_list h.list_get h.here_get hi
  exact ⟨_, hremove, ⟨(z.items_removed hi).symm, hc⟩, rfl⟩

theorem set_of_untouched (h : b.Shows bound z) (hz : z.touched = none) (x : α) :
    source.set x b = .failure (.notMoved .set true) b :=
  Cursor.set_of_untouched h.here_get hz x

theorem set_of_touched (h : b.Shows bound z) {i : Nat} (hi : z.touched = some i) (x : α) :
    ∃ b', source.set x b = .value () b' ∧ b'.Shows bound (z.replaced x) ∧ b'.top = b.top := by
  obtain ⟨hset, hc⟩ := Cursor.set_of_touched h.list_get h.here_get hi x
  exact ⟨_, hset, ⟨(z.items_replaced hi x).symm, hc⟩, rfl⟩

theorem add_apply (h : b.Shows bound z) (hroom : z.items.length < bound) (x : α) :
    ∃ b', source.add x b = .value () b' ∧ b'.Shows bound (z.inserted x) ∧ b'.top = b.top := by
  obtain ⟨c, hadd, hc⟩ := Cursor.add_apply here_apart_list h.list_get h.here_get hroom x
  exact ⟨_, hadd, ⟨rfl, hc⟩, rfl⟩

/-! ## §3. Searching. -/

/-- A search looks at the elements in its direction, one after the other. -/
theorem search_apply (verdict : α → Except Failure Bool) (h : b.Shows bound z) (d : Direction)
    {fuel : Nat} (hfuel : (z.toward d).length < fuel) :
    ∃ b', Filter.search (source.hasMore d) (source.step d) (judge verdict) fuel b
        = .of (look verdict (z.toward d)) b'
      ∧ b'.Shows bound (z.cross d (passed verdict (z.toward d))) ∧ b'.top = b.top := by
  -- The induction is on the elements ahead; each round crosses the nearest one.
  induction hys : z.toward d generalizing b z fuel with
  | nil =>
      obtain ⟨fuel, rfl⟩ := Nat.exists_eq_succ_of_ne_zero (Nat.ne_zero_of_lt hfuel)
      refine ⟨b, ?_, by simpa using h, rfl⟩
      simp only [Filter.search, Act.bind_apply, hasMore_apply h d, hys]
      rfl
  | cons y ys ih =>
      obtain ⟨fuel, rfl⟩ := Nat.exists_eq_succ_of_ne_zero (Nat.ne_zero_of_lt hfuel)
      obtain ⟨b₁, hstep, h₁, htop₁⟩ := step_of_toward_cons h hys
      have hrest : (z.cross d 1).toward d = ys := by rw [z.toward_cross, hys]; rfl
      have hround : Filter.search (source.hasMore d) (source.step d) (judge verdict) (fuel + 1) b
          = (Act.ofExcept (verdict y) >>= fun accepted =>
              if accepted then pure (some y)
              else Filter.search (source.hasMore d) (source.step d) (judge verdict) fuel) b₁ := by
        simp only [Filter.search, Act.bind_apply, hasMore_apply h d, hys, List.isEmpty_cons,
          Bool.not_false, if_true, hstep]
        rfl
      rw [hround, Act.bind_apply, Act.ofExcept_apply]
      obtain hy | hy | ⟨e, hy⟩ := verdict_cases verdict y
      · rw [look_cons_of_match hy, passed_cons_of_match hy, hy]
        exact ⟨b₁, rfl, h₁, htop₁⟩
      · -- A rejected element is behind the cursor now, and the search goes on.
        rw [hys, List.length_cons] at hfuel
        have hlt : ((z.cross d 1).toward d).length < fuel := by rw [hrest]; omega
        obtain ⟨b₂, hsearch, h₂, htop₂⟩ := ih h₁ hlt hrest
        rw [look_cons_of_rejected hy, passed_cons_of_rejected hy, Nat.add_comm,
          ← z.cross_cross, hy]
        exact ⟨b₂, hsearch, h₂, htop₂.trans htop₁⟩
      · rw [look_cons_of_error hy, passed_cons_of_error hy, hy]
        exact ⟨b₁, rfl, h₁, htop₁⟩

end Bench

/-! ## §4. Calls. -/

/-- A call of a two-way source. -/
inductive Call (α : Type) where
  | next
  | previous
  | hasNext
  | hasPrevious
  | add (x : α)
  | set (x : α)
  | remove
  deriving Repr, DecidableEq

/-- What a call answers. -/
inductive Answer (α : Type) where
  /-- A move answers with the element crossed. -/
  | element (x : α)
  /-- A question is answered by a truth value. -/
  | truth (b : Bool)
  /-- An edit answers nothing. -/
  | done
  deriving Repr, DecidableEq

/-- Make a call. -/
def Call.ask (source : TwoWay σ α) : Call α → Act σ (Answer α)
  | .next => do return .element (← source.next)
  | .previous => do return .element (← source.previous)
  | .hasNext => do return .truth (← source.hasNext)
  | .hasPrevious => do return .truth (← source.hasPrevious)
  | .add x => do
      source.add x
      return .done
  | .set x => do
      source.set x
      return .done
  | .remove => do
      source.remove
      return .done

/-- The question for an element in a direction. -/
def Call.hasMore : Direction → Call α
  | .forward => .hasNext
  | .backward => .hasPrevious

/-- The move in a direction. -/
def Call.step : Direction → Call α
  | .forward => .next
  | .backward => .previous

/-- A call of a forward source. -/
inductive Pull where
  | next
  | hasNext
  | remove
  deriving Repr, DecidableEq

/-- The same call of a two-way source. -/
def Pull.call : Pull → Call α
  | .next => .next
  | .hasNext => .hasNext
  | .remove => .remove

/-- Make a call of a forward source. -/
def Pull.ask (source : Forward σ α) : Pull → Act σ (Answer α)
  | .next => do return .element (← source.next)
  | .hasNext => do return .truth (← source.hasNext)
  | .remove => do
      source.remove
      return .done

theorem Call.ask_hasMore (source : TwoWay σ α) (d : Direction) :
    (Call.hasMore d).ask source = (do return .truth (← source.hasMore d)) := by
  cases d <;> rfl

theorem Call.ask_step (source : TwoWay σ α) (d : Direction) :
    (Call.step d).ask source = (do return .element (← source.step d)) := by
  cases d <;> rfl

section

variable {source : TwoWay σ α} {pulled : Forward σ α} {s s' : σ}

/-- An answer passed on. -/
theorem Act.map_of {τ υ : Type} {x : Act σ τ} {r : Except Failure τ} (f : τ → υ)
    (h : x s = .of r s') : (x >>= fun a => pure (f a)) s = .of (r.map f) s' := by
  rw [Act.bind_apply, h]
  cases r <;> rfl

theorem Call.ask_hasMore_of {d : Direction} {r : Except Failure Bool}
    (h : source.hasMore d s = .of r s') :
    (Call.hasMore d).ask source s = .of (r.map .truth) s' := by
  rw [Call.ask_hasMore]
  exact Act.map_of Answer.truth h

theorem Call.ask_step_of {d : Direction} {r : Except Failure α}
    (h : source.step d s = .of r s') : (Call.step d).ask source s = .of (r.map .element) s' := by
  rw [Call.ask_step]
  exact Act.map_of Answer.element h

theorem Call.ask_add_of {x : α} {r : Except Failure Unit} (h : source.add x s = .of r s') :
    (Call.add x).ask source s = .of (r.map fun _ => .done) s' :=
  Act.map_of (fun _ => Answer.done) h

theorem Call.ask_set_of {x : α} {r : Except Failure Unit} (h : source.set x s = .of r s') :
    (Call.set x).ask source s = .of (r.map fun _ => .done) s' :=
  Act.map_of (fun _ => Answer.done) h

theorem Call.ask_remove_of {r : Except Failure Unit} (h : source.remove s = .of r s') :
    Call.remove.ask source s = .of (r.map fun _ => .done) s' :=
  Act.map_of (fun _ => Answer.done) h

theorem Pull.ask_hasNext_of {r : Except Failure Bool} (h : pulled.hasNext s = .of r s') :
    Pull.hasNext.ask pulled s = .of (r.map .truth) s' :=
  Act.map_of Answer.truth h

theorem Pull.ask_next_of {r : Except Failure α} (h : pulled.next s = .of r s') :
    Pull.next.ask pulled s = .of (r.map .element) s' :=
  Act.map_of Answer.element h

theorem Pull.ask_remove_of {r : Except Failure Unit} (h : pulled.remove s = .of r s') :
    Pull.remove.ask pulled s = .of (r.map fun _ => .done) s' :=
  Act.map_of (fun _ => Answer.done) h

end

end Cursors
