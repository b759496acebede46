/-
  Cursors.Proofs.Buffer.Mirror
  ────────────────────────────
  **A BUFFER RESPONDS AS A CURSOR IN THE WHOLE LIST.**

  A buffer keeps the elements that it has pulled and edits these only; the
  rest of the list is still in its source.  What a user sees is one list,

      kept elements ++ elements still to come

  with a gap in it (`Buffer.Spans`), and every call is answered from there
  (`Buffer.ask_respond`) as a cursor in that list answers it.  Hence a run
  of calls on the buffer and the same run on a cursor in the drained list
  cannot be told apart (`mirrors_cursor`); where edits are refused, this
  goes for all other calls.
-/
import Cursors.Combinator.Buffer
import Cursors.Proofs.Gesture
import Cursors.Proofs.Leaf

namespace Cursors

namespace Buffer

variable {σ α : Type}

/-! ## §1. The gap that a buffer shows. -/

/-- The buffer, followed by the elements still to come, shows the list of `z` and its gap. -/
structure Spans (b : Buffer α) (rest : List α) (z : Zipper α) : Prop where
  items_eq : b.kept ++ rest = z.items
  position_eq : b.position = z.back.length
  position_le : b.position ≤ b.kept.length
  last_eq : b.last = z.touched
  /-- The element crossed last has been kept. -/
  last_lt : ∀ i, b.last = some i → i < b.kept.length

theorem spans_fresh (xs : List α) : Spans ({} : Buffer α) xs (.ofList xs 0) where
  items_eq := (Zipper.items_ofList xs 0).symm
  position_eq := by simp [Zipper.ofList]
  position_le := Nat.le_refl 0
  last_eq := rfl
  last_lt i hi := by simp at hi

namespace Spans

variable {b : Buffer α} {rest : List α} {z : Zipper α}

/-- In front of the gap are the kept elements from the position on, and what is still to come. -/
theorem front_eq (h : b.Spans rest z) : z.front = b.kept.drop b.position ++ rest := by
  rw [← List.drop_append_of_le_length h.position_le, h.items_eq, h.position_eq, Zipper.items,
    List.drop_left' (by rw [List.length_reverse])]

theorem front_eq_rest (h : b.Spans rest z) (hend : ¬ b.position < b.kept.length) :
    z.front = rest := by
  rw [h.front_eq, List.drop_of_length_le (by omega), List.nil_append]

theorem isEmpty_front_of_lt (h : b.Spans rest z) (hlt : b.position < b.kept.length) :
    z.front.isEmpty = false := by
  rw [h.front_eq, List.drop_eq_getElem_cons hlt]
  rfl

theorem getElem?_kept (h : b.Spans rest z) {i : Nat} (hi : i < b.kept.length) :
    b.kept[i]? = z.items[i]? := by
  rw [← h.items_eq, List.getElem?_append_left hi]

/-- The gap crosses an element that is kept. -/
theorem crossed (h : b.Spans rest z) {kept rest' : List α} {x : α} {xs : List α}
    (hx : z.front = x :: xs) (hkept : kept ++ rest' = z.items) (hlt : b.position < kept.length) :
    Spans { kept := kept, position := b.position + 1, last := some b.position } rest'
      (z.cross .forward 1) where
  items_eq := by rw [z.items_cross, hkept]
  position_eq := by simp [Zipper.cross, hx, h.position_eq]
  position_le := hlt
  last_eq := by simp [Zipper.cross, Zipper.touched, hx, h.position_eq]
  last_lt i hi := by
    obtain rfl : b.position = i := by simpa using hi
    exact hlt

/-- The gap goes back across an element, which is always kept. -/
theorem crossedBack (h : b.Spans rest z) {x : α} {xs : List α} (hx : z.back = x :: xs) :
    Spans { b with position := b.position - 1, last := some (b.position - 1) } rest
      (z.cross .backward 1) := by
  have hpos : b.position = xs.length + 1 := by rw [h.position_eq, hx]; rfl
  have hle := h.position_le
  refine ⟨by rw [z.items_cross, h.items_eq], ?_, ?_, ?_, fun i hi => ?_⟩
  · simp [Zipper.cross, hx, hpos]
  · show b.position - 1 ≤ b.kept.length
    omega
  · simp [Zipper.cross, Zipper.touched, hx, hpos]
  · obtain rfl : b.position - 1 = i := by simpa using hi
    show b.position - 1 < b.kept.length
    omega

/-- The element crossed last is dropped from the kept ones. -/
theorem removed (h : b.Spans rest z) {i : Nat} (hi : z.touched = some i) :
    Spans { kept := b.kept.eraseIdx i,
            position := if i < b.position then b.position - 1 else b.position,
            last := none } rest z.removed := by
  have hlt : i < b.kept.length := h.last_lt i (h.last_eq.trans hi)
  have hpos := h.position_eq
  have hle := h.position_le
  have hlen : (b.kept.eraseIdx i).length = b.kept.length - 1 := List.length_eraseIdx_of_lt hlt
  refine ⟨?_, ?_, ?_, ?_, by simp⟩
  · rw [Zipper.items_removed hi, ← h.items_eq, List.eraseIdx_append_of_lt_length hlt]
  · -- The position moves only with an element behind it.
    obtain ⟨x, l, f, rfl, rfl⟩ | ⟨x, l, f, rfl, rfl⟩ := Zipper.touched_cases hi
    · simp only [List.length_cons] at hpos
      show (if _ then _ else _) = l.length
      rw [if_pos (by omega)]
      omega
    · show (if _ then _ else _) = l.length
      rw [if_neg (by simp only at hpos; omega)]
      exact hpos
  · show (if i < b.position then b.position - 1 else b.position) ≤ (b.kept.eraseIdx i).length
    rw [hlen]
    split <;> omega
  · rw [Zipper.touched_of_uncrossed z.crossed_removed]

/-- The element crossed last is replaced among the kept ones. -/
theorem replaced (h : b.Spans rest z) {i : Nat} (hi : z.touched = some i) (x : α) :
    Spans { b with kept := b.kept.set i x } rest (z.replaced x) := by
  have hlt : i < b.kept.length := h.last_lt i (h.last_eq.trans hi)
  refine ⟨?_, ?_, ?_, ?_, fun j hj => ?_⟩
  · rw [Zipper.items_replaced hi, ← h.items_eq, List.set_append_left i x hlt]
  · exact h.position_eq.trans (z.length_back_replaced x).symm
  · show b.position ≤ (b.kept.set i x).length
    rw [List.length_set]
    exact h.position_le
  · rw [z.touched_replaced]
    exact h.last_eq
  · show j < (b.kept.set i x).length
    rw [List.length_set]
    exact h.last_lt j hj

/-- A new element is kept just before the gap. -/
theorem inserted (h : b.Spans rest z) (x : α) :
    Spans { kept := b.kept.take b.position ++ x :: b.kept.drop b.position,
            position := b.position + 1, last := none } rest (z.inserted x) := by
  have hle := h.position_le
  refine ⟨?_, ?_, ?_, rfl, by simp⟩
  · rw [z.items_inserted, ← h.position_eq, ← h.items_eq, List.take_append_of_le_length hle,
      List.drop_append_of_le_length hle, List.append_assoc, List.cons_append]
  · show b.position + 1 = (x :: z.back).length
    rw [List.length_cons, h.position_eq]
  · show b.position + 1 ≤ (b.kept.take b.position ++ x :: b.kept.drop b.position).length
    simp only [List.length_append, List.length_take, List.length_cons, List.length_drop]
    omega

theorem rewound (h : b.Spans rest z) :
    Spans { b with position := 0, last := none } rest z.rewound where
  items_eq := h.items_eq
  position_eq := rfl
  position_le := Nat.zero_le _
  last_eq := rfl
  last_lt i hi := by simp at hi

end Spans

/-! ## §2. One call. -/

/-- The buffer over the source of a host. -/
def hosted (strict : Bool) (host : Host σ (Buffer α) α) : TwoWay σ α :=
  twoWay (pure strict) host.self host.source

/-- Send the buffer back to the front. -/
def rewind (host : Host σ (Buffer α) α) : Act σ Unit := reset host.self

/-- The buffer answers a gesture as the zipper does, and shows then what the zipper has become. -/
def Responds (strict : Bool) (host : Host σ (Buffer α) α) (g : Gesture α) (z : Zipper α)
    (s : σ) : Prop :=
  ∃ s' b rest, g.ask (hosted strict host) (rewind host) s = .of (z.respond g).1 s'
    ∧ host.Holds s' b rest ∧ b.Spans rest (z.respond g).2

section

variable {host : Host σ (Buffer α) α} {s : σ} {b : Buffer α} {rest : List α} {z : Zipper α}
  {strict : Bool}

/-- Past the kept elements the source is asked. -/
theorem hasNext_apply (h : host.Holds s b rest) (hb : b.Spans rest z) :
    ∃ s', hasNext host.self host.source s = .value (!z.front.isEmpty) s'
      ∧ host.Holds s' b rest := by
  have hself : host.self.get s = b := host.self_get h
  by_cases hlt : b.position < b.kept.length
  · refine ⟨s, ?_, h⟩
    simp only [hasNext, Act.bind_apply, Field.read_apply, hself, hlt, if_true,
      hb.isEmpty_front_of_lt hlt]
    rfl
  · obtain ⟨s', hask, h'⟩ := (host.gives b).hasNext_apply h
    refine ⟨s', ?_, h'⟩
    simp only [hasNext, Act.bind_apply, Field.read_apply, hself, hlt, if_false,
      hb.front_eq_rest hlt]
    exact hask

/-- A forward move crosses a kept element if there is one, and pulls one otherwise. -/
theorem next_of_front (h : host.Holds s b rest) (hb : b.Spans rest z) {x : α} {xs : List α}
    (hz : z.front = x :: xs) :
    ∃ s' b' rest', next host.self host.source s = .value x s' ∧ host.Holds s' b' rest'
      ∧ b'.Spans rest' (z.cross .forward 1) := by
  have hself : host.self.get s = b := host.self_get h
  by_cases hlt : b.position < b.kept.length
  · have hx : b.kept[b.position] = x := by
      have hfront := hb.front_eq
      rw [hz, List.drop_eq_getElem_cons hlt, List.cons_append] at hfront
      exact (List.cons.inj hfront).1.symm
    refine ⟨_, _, rest, ?_, host.self_set h _, hb.crossed hz hb.items_eq hlt⟩
    simp only [next, Act.bind_apply, Field.read_apply, hself, List.getElem?_eq_getElem hlt,
      cross, Field.modify_apply, hx]
    rfl
  · have hnone : b.kept[b.position]? = none := List.getElem?_eq_none (by omega)
    have hrest : rest = x :: xs := (hb.front_eq_rest hlt).symm.trans hz
    subst hrest
    obtain ⟨s₁, hpull, h₁⟩ := (host.gives b).next_of_cons h
    have h₂ := host.self_set h₁ { b with kept := b.kept ++ [x] }
    have hkept : (b.kept ++ [x]) ++ xs = z.items := by
      rw [List.append_assoc, List.singleton_append, hb.items_eq]
    have hpos : b.position < (b.kept ++ [x]).length := by
      have := hb.position_le
      rw [List.length_append, List.length_singleton]
      omega
    refine ⟨_, _, xs, ?_, host.self_set h₂ _, hb.crossed hz hkept hpos⟩
    simp only [next, Act.bind_apply, Field.read_apply, hself, hnone, hpull, cross,
      Field.modify_apply, host.self_get h₁, host.self_get h₂]
    rfl

theorem next_of_front_nil (h : host.Holds s b rest) (hb : b.Spans rest z) (hz : z.front = []) :
    ∃ s', next host.self host.source s = .failure .ended s' ∧ host.Holds s' b rest := by
  have hend : ¬ b.position < b.kept.length := by
    intro hlt
    have hne := hb.isEmpty_front_of_lt hlt
    rw [hz] at hne
    exact Bool.false_ne_true hne.symm
  have hnone : b.kept[b.position]? = none := List.getElem?_eq_none (by omega)
  have hrest : rest = [] := (hb.front_eq_rest hend).symm.trans hz
  subst hrest
  obtain ⟨s', hpull, h'⟩ := (host.gives b).next_of_nil h
  refine ⟨s', ?_, h'⟩
  simp only [next, Act.bind_apply, Field.read_apply, host.self_get h, hnone, hpull]

theorem responds_hasNext (h : host.Holds s b rest) (hb : b.Spans rest z) :
    Responds strict host (.call .hasNext) z s := by
  obtain ⟨s', hask, h'⟩ := hasNext_apply h hb
  have hof : (hosted strict host).hasMore .forward s = .of (.ok (!z.front.isEmpty)) s' := hask
  exact ⟨s', b, rest, Gesture.ask_call_of (Call.ask_hasMore_of hof), h', hb⟩

theorem responds_hasPrevious (h : host.Holds s b rest) (hb : b.Spans rest z) :
    Responds strict host (.call .hasPrevious) z s := by
  have hself : host.self.get s = b := host.self_get h
  have hback : decide (b.position > 0) = !z.back.isEmpty := by
    rw [hb.position_eq]
    cases z.back <;> rfl
  have hof : (hosted strict host).hasMore .backward s = .of (.ok (!z.back.isEmpty)) s := by
    show hasPrevious host.self s = _
    simp only [hasPrevious, Act.bind_apply, Field.read_apply, hself, hback]
    rfl
  exact ⟨s, b, rest, Gesture.ask_call_of (Call.ask_hasMore_of hof), h, hb⟩

theorem responds_next (h : host.Holds s b rest) (hb : b.Spans rest z) :
    Responds strict host (.call .next) z s := by
  unfold Responds
  rw [Zipper.respond_next]
  match hz : z.front with
  | [] =>
      obtain ⟨s', hnext, h'⟩ := next_of_front_nil h hb hz
      have hof : (hosted strict host).step .forward s = .of (.error .ended) s' := hnext
      rw [Zipper.move_of_toward_nil (d := .forward) hz]
      exact ⟨s', b, rest, Gesture.ask_call_of (Call.ask_step_of hof), h', hb⟩
  | x :: xs =>
      obtain ⟨s', b', rest', hnext, h', hb'⟩ := next_of_front h hb hz
      have hof : (hosted strict host).step .forward s = .of (.ok x) s' := hnext
      rw [Zipper.move_of_toward_cons (d := .forward) hz]
      exact ⟨s', b', rest', Gesture.ask_call_of (Call.ask_step_of hof), h', hb'⟩

theorem responds_previous (h : host.Holds s b rest) (hb : b.Spans rest z) :
    Responds strict host (.call .previous) z s := by
  have hself : host.self.get s = b := host.self_get h
  have hanswer : ∀ {r : Except Failure α} {s' : σ}, previous host.self s = .of r s' →
      (Gesture.call .previous).ask (hosted strict host) (rewind host) s
        = .of ((r.map .element).map .answer) s' :=
    fun hof => Gesture.ask_call_of (Call.ask_step_of (d := .backward) hof)
  unfold Responds
  rw [Zipper.respond_previous]
  match hx : z.back with
  | [] =>
      rw [Zipper.move_of_toward_nil (d := .backward) hx]
      have hzero : b.position = 0 := by rw [hb.position_eq, hx]; rfl
      refine ⟨s, b, rest, hanswer (r := .error .ended) ?_, h, hb⟩
      simp only [previous, Act.bind_apply, Field.read_apply, hself, hzero, if_true,
        Act.fail_apply]
      rfl
  | x :: xs =>
      rw [Zipper.move_of_toward_cons (d := .backward) hx]
      have hpos : b.position = xs.length + 1 := by rw [hb.position_eq, hx]; rfl
      have hle := hb.position_le
      have hget : b.kept[xs.length]? = some x := by
        rw [hb.getElem?_kept (by omega), Zipper.items, hx]
        simp
      have hprevious : previous host.self s = .of (.ok x)
          (host.self.set { b with position := b.position - 1, last := some (b.position - 1) }
            s) := by
        have hpred : b.position - 1 = xs.length := by omega
        simp only [previous, Act.bind_apply, Field.read_apply, hself,
          if_neg (show ¬ b.position = 0 by omega), Field.write, Act.update_apply, hpred, hget]
        rfl
      exact ⟨_, _, rest, hanswer hprevious, host.self_set h _, hb.crossedBack hx⟩

/-! ### Edits. -/

theorem lastCrossed_of_touched (h : host.Holds s b rest) (hb : b.Spans rest z) {i : Nat}
    (hi : z.touched = some i) (edit : Edit) : lastCrossed host.self edit s = .value i s := by
  have hlast : (host.self.get s).last = some i := by rw [host.self_get h, hb.last_eq, hi]
  simp only [lastCrossed, Act.bind_apply, Field.read_apply, hlast]
  rfl

theorem lastCrossed_of_untouched (h : host.Holds s b rest) (hb : b.Spans rest z)
    (hi : z.touched = none) (edit : Edit) :
    lastCrossed host.self edit s = .failure (.notMoved edit true) s := by
  have hlast : (host.self.get s).last = none := by rw [host.self_get h, hb.last_eq, hi]
  simp only [lastCrossed, Act.bind_apply, Field.read_apply, hlast, Act.fail_apply]

@[simp] theorem checkMutable_false (edit : Edit) :
    checkMutable (pure false) edit = (pure () : Act σ Unit) := rfl

theorem responds_remove (h : host.Holds s b rest) (hb : b.Spans rest z) :
    Responds false host (.call .remove) z s := by
  have hself : host.self.get s = b := host.self_get h
  unfold Responds
  rw [Zipper.respond_remove]
  match hi : z.touched with
  | none =>
      rw [Zipper.change_of_untouched hi]
      have hof : (hosted false host).remove s = .of (.error (.notMoved .remove true)) s := by
        show remove (pure false) host.self s = _
        simp only [remove, checkMutable_false, Act.bind_apply, Act.pure_apply,
          lastCrossed_of_untouched h hb hi]
        rfl
      exact ⟨s, b, rest, Gesture.ask_call_of (Call.ask_remove_of hof), h, hb⟩
  | some i =>
      rw [Zipper.change_of_touched hi]
      have hof : (hosted false host).remove s = .of (.ok ()) (host.self.set
          { kept := b.kept.eraseIdx i,
            position := if i < b.position then b.position - 1 else b.position,
            last := none } s) := by
        show remove (pure false) host.self s = _
        simp only [remove, checkMutable_false, Act.bind_apply, Act.pure_apply,
          lastCrossed_of_touched h hb hi, Field.modify_apply, hself]
        rfl
      exact ⟨_, _, rest, Gesture.ask_call_of (Call.ask_remove_of hof), host.self_set h _,
        hb.removed hi⟩

theorem responds_set (h : host.Holds s b rest) (hb : b.Spans rest z) (x : α) :
    Responds false host (.call (.set x)) z s := by
  have hself : host.self.get s = b := host.self_get h
  unfold Responds
  rw [Zipper.respond_set]
  match hi : z.touched with
  | none =>
      rw [Zipper.change_of_untouched hi]
      have hof : (hosted false host).set x s = .of (.error (.notMoved .set true)) s := by
        show set (pure false) host.self x s = _
        simp only [set, checkMutable_false, Act.bind_apply, Act.pure_apply,
          lastCrossed_of_untouched h hb hi]
        rfl
      exact ⟨s, b, rest, Gesture.ask_call_of (Call.ask_set_of hof), h, hb⟩
  | some i =>
      rw [Zipper.change_of_touched hi]
      have hof : (hosted false host).set x s
          = .of (.ok ()) (host.self.set { b with kept := b.kept.set i x } s) := by
        show set (pure false) host.self x s = _
        simp only [set, checkMutable_false, Act.bind_apply, Act.pure_apply,
          lastCrossed_of_touched h hb hi, Field.modify_apply, hself]
        rfl
      exact ⟨_, _, rest, Gesture.ask_call_of (Call.ask_set_of hof), host.self_set h _,
        hb.replaced hi x⟩

theorem responds_add (h : host.Holds s b rest) (hb : b.Spans rest z) (x : α) :
    Responds false host (.call (.add x)) z s := by
  have hof : (hosted false host).add x s = .of (.ok ()) (host.self.set
      { kept := b.kept.take b.position ++ x :: b.kept.drop b.position,
        position := b.position + 1, last := none } s) := by
    show add (pure false) host.self x s = _
    simp only [add, checkMutable_false, Act.bind_apply, Act.pure_apply, Field.modify_apply,
      host.self_get h]
    rfl
  exact ⟨_, _, rest, Gesture.ask_call_of (Call.ask_add_of hof), host.self_set h _, hb.inserted x⟩

/-! ### All calls. -/

/-- A buffer responds as the zipper of the whole list does, edits apart if it refuses them. -/
theorem responds (h : host.Holds s b rest) (hb : b.Spans rest z) (g : Gesture α)
    (hg : strict = true → g.edit? = none) : Responds strict host g z s := by
  have hfree : ∀ edit, g.edit? = some edit → strict = false := by
    intro edit hedit
    cases hs : strict with
    | false => rfl
    | true => rw [hg hs] at hedit; exact absurd hedit (by simp)
  match g, hfree with
  | .call .next, _ => exact responds_next h hb
  | .call .previous, _ => exact responds_previous h hb
  | .call .hasNext, _ => exact responds_hasNext h hb
  | .call .hasPrevious, _ => exact responds_hasPrevious h hb
  | .call (.add x), hfree => rw [hfree _ rfl]; exact responds_add h hb x
  | .call (.set x), hfree => rw [hfree _ rfl]; exact responds_set h hb x
  | .call .remove, hfree => rw [hfree _ rfl]; exact responds_remove h hb
  | .nextIndex, _ =>
      have hindex : (hosted strict host).nextIndex s = .value (z.back.length : Int) s := by
        show Outcome.value ((host.self.get s).position : Int) s = _
        rw [host.self_get h, hb.position_eq]
      exact ⟨s, b, rest, Gesture.ask_nextIndex_of hindex, h, hb⟩
  | .previousIndex, _ =>
      have hindex : (hosted strict host).previousIndex s
          = .value ((z.back.length : Int) - 1) s := by
        show Outcome.value (((host.self.get s).position : Int) - 1) s = _
        rw [host.self_get h, hb.position_eq]
      exact ⟨s, b, rest, Gesture.ask_previousIndex_of hindex, h, hb⟩
  | .reset, _ =>
      have hreset : rewind host s
          = .value () (host.self.set { b with position := 0, last := none } s) := by
        show Outcome.value () (host.self.set _ s) = _
        rw [host.self_get h]
      exact ⟨_, _, rest, Gesture.ask_reset_of hreset, host.self_set h _, hb.rewound⟩

/-- A buffer that refuses edits changes nothing when it is asked for one. -/
theorem refuses (g : Gesture α) {edit : Edit} (hg : g.edit? = some edit) (s : σ) :
    g.ask (hosted true host) (rewind host) s = .failure (.strict edit) s := by
  match g, hg with
  | .call .remove, rfl => rfl
  | .call (.set x), rfl => rfl
  | .call (.add x), rfl => rfl

end

/-! ## §3. Runs. -/

/-- What has been kept and what is still to come make up `xs`. -/
def Content (host : Host σ (Buffer α) α) (s : σ) (xs : List α) : Prop :=
  ∃ b rest, host.Holds s b rest ∧ b.kept ++ rest = xs

/-- Gesture by gesture, the buffer answers as the cursor of a bench does, and has the same
content.  Edits that it refuses change nothing, and are not made on the bench. -/
def Mirrors (strict : Bool) (host : Host σ (Buffer α) α) :
    List (Gesture α) → σ → Bench α Unit → Prop
  | [], s, ref => Content host s ref.items
  | g :: gs, s, ref =>
      Content host s ref.items
        ∧ match strict, g.edit? with
          | true, some edit =>
              g.ask (hosted strict host) (rewind host) s = .failure (.strict edit) s
                ∧ Mirrors strict host gs s ref
          | _, _ =>
              ∃ r s' ref', g.ask (hosted strict host) (rewind host) s = .of r s'
                ∧ g.ask Bench.source Bench.rewind ref = .of r ref'
                ∧ Mirrors strict host gs s' ref'

/-- The source is stepped by a forward move past the kept elements and by nothing else, and where
it fails, the buffer does no more than to fail likewise. -/
structure Frugal (strict : Bool) (self : Field σ (Buffer α)) (source : Forward σ α) (s : σ) :
    Prop where
  /-- What a step of the source would do is of no account. -/
  unstepped : ∀ (g : Gesture α) (step : Act σ α),
    (g = .call .next → (self.get s).position < (self.get s).kept.length) →
      g.ask (twoWay (pure strict) self { source with next := step }) (reset self) s
        = g.ask (twoWay (pure strict) self source) (reset self) s
  next_of_failure : ∀ {e : Failure} {s₁ : σ}, (self.get s).kept.length ≤ (self.get s).position →
    source.next s = .failure e s₁ →
      (Gesture.call .next).ask (twoWay (pure strict) self source) (reset self) s = .failure e s₁
  hasNext_of_failure : ∀ {e : Failure} {s₁ : σ},
    (self.get s).kept.length ≤ (self.get s).position → source.hasNext s = .failure e s₁ →
      (Gesture.call .hasNext).ask (twoWay (pure strict) self source) (reset self) s
        = .failure e s₁

theorem frugal (strict : Bool) (self : Field σ (Buffer α)) (source : Forward σ α) (s : σ) :
    Frugal strict self source s where
  unstepped := by
    intro g step hg
    match g, hg with
    | .call .next, hg =>
        have hsame : (twoWay (pure strict) self { source with next := step }).next s
            = (twoWay (pure strict) self source).next s := by
          show next self _ s = next self source s
          simp only [next, Act.bind_apply, Field.read_apply, List.getElem?_eq_getElem (hg rfl)]
        simp only [Gesture.ask, Call.ask, Act.bind_apply, hsame]
    | .call .previous, _ | .call .hasNext, _ | .call .hasPrevious, _ | .call (.add _), _ => rfl
    | .call (.set _), _ | .call .remove, _ | .nextIndex, _ | .previousIndex, _ | .reset, _ => rfl
  next_of_failure := by
    intro e s₁ hle hnext
    have hnone : (self.get s).kept[(self.get s).position]? = none := List.getElem?_eq_none hle
    have hof : (twoWay (pure strict) self source).step .forward s = .of (.error e) s₁ := by
      show next self source s = _
      simp only [next, Act.bind_apply, Field.read_apply, hnone, hnext]
      rfl
    exact Gesture.ask_call_of (Call.ask_step_of hof)
  hasNext_of_failure := by
    intro e s₁ hle hask
    have hof : (twoWay (pure strict) self source).hasMore .forward s = .of (.error e) s₁ := by
      show hasNext self source s = _
      simp only [hasNext, Act.bind_apply, Field.read_apply, if_neg (Nat.not_lt.mpr hle), hask]
      rfl
    exact Gesture.ask_call_of (Call.ask_hasMore_of hof)

theorem content_of_spans {host : Host σ (Buffer α) α} {s : σ} {b : Buffer α} {rest : List α}
    {z : Zipper α} (h : host.Holds s b rest) (hb : b.Spans rest z) : Content host s z.items :=
  ⟨b, rest, h, hb.items_eq⟩

/-- Where a buffer and a bench show the same gap in the same list, the buffer mirrors the bench. -/
theorem mirrors_of_shows (strict : Bool) (host : Host σ (Buffer α) α) {bound : Nat}
    {gs : List (Gesture α)} {s : σ} {b : Buffer α} {rest : List α} {z : Zipper α}
    {ref : Bench α Unit} (h : host.Holds s b rest) (hb : b.Spans rest z)
    (href : ref.Shows bound z) (hroom : z.items.length + gs.length ≤ bound) :
    Mirrors strict host gs s ref := by
  -- Both follow the zipper, which grows by at most one element with each gesture.
  induction gs generalizing s b rest z ref with
  | nil =>
      show Content host s ref.items
      rw [href.items_eq]
      exact content_of_spans h hb
  | cons g gs ih =>
      rw [List.length_cons] at hroom
      unfold Mirrors
      refine ⟨href.items_eq ▸ content_of_spans h hb, ?_⟩
      have hanswer : (strict = true → g.edit? = none) →
          ∃ r s' ref', g.ask (hosted strict host) (rewind host) s = .of r s'
            ∧ g.ask Bench.source Bench.rewind ref = .of r ref'
            ∧ Mirrors strict host gs s' ref' := by
        intro hg
        obtain ⟨s', b', rest', hask, h', hb'⟩ := responds h hb g hg
        obtain ⟨ref', hask', href', -⟩ := Bench.ask_respond href (by omega) g
        have hlen := z.length_respond_le g
        exact ⟨_, s', ref', hask, hask', ih h' hb' href' (by omega)⟩
      split
      · next edit hedit =>
          have hask : g.ask (hosted true host) (rewind host) s = .failure (.strict edit) s :=
            refuses g hedit s
          exact ⟨hask, ih h hb href (by omega)⟩
      · next hother =>
          apply hanswer
          intro hstrict
          cases hedit : g.edit? with
          | none => rfl
          | some edit => exact (hother edit hstrict hedit).elim

/-- **A buffer mirrors a cursor in the list that its source gives.**  It does not step its source
to find out, but only where it moves past what it has kept. -/
theorem mirrors_cursor (strict : Bool) (host : Host σ (Buffer α) α) {s : σ} {xs : List α}
    (h : host.Holds s {} xs) :
    (∀ gs, Mirrors strict host gs s { items := xs, cursor := {}, top := () })
      ∧ ∀ s, Frugal strict host.self host.source s := by
  refine ⟨fun gs => ?_, frugal strict host.self host.source⟩
  -- A place that counts up to the length of the list and one more for each gesture is enough.
  have href : Bench.Shows { items := xs, cursor := {}, top := () } (xs.length + gs.length)
      (Zipper.ofList xs 0) :=
    ⟨(Zipper.items_ofList xs 0).symm,
      Cursor.spans_ofList (Place.standsAt_plain (Nat.zero_le _)) (Nat.zero_le _) (by omega)⟩
  apply mirrors_of_shows strict host h (spans_fresh xs) href
  exact Nat.le_of_eq (by rw [Zipper.items_ofList])

end Buffer

/-! ## §4. A buffer over a plain list. -/

/-- A buffer, a look-ahead below it, and the number of steps taken below that. -/
structure Reel (α : Type) where
  buffer : Buffer α := {}
  peek : Peek α := {}
  taken : Nat := 0
  deriving Repr, DecidableEq

namespace Reel

variable {α : Type}

/-- The look-ahead and the steps below a buffer that stays. -/
def pair (b : Buffer α) : Pair (Reel α) (Peek α) Nat where
  first := { get := Reel.peek, set := fun p r => { r with peek := p } }
  second := { get := Reel.taken, set := fun n r => { r with taken := n } }
  Holds r p n := r = { buffer := b, peek := p, taken := n }
  first_get h := by rw [h]
  second_get h := by rw [h]
  first_set h p := by rw [h]
  second_set h n := by rw [h]

/-- The buffer over a look-ahead over the steps of a list. -/
def host (xs : List α) : Host (Reel α) (Buffer α) α where
  self := { get := Reel.buffer, set := fun b r => { r with buffer := b } }
  source := Peek.forward "source" (pair {}).first (Feed.pull (Feed.ofList xs) (pair {}).second)
  Holds r b rest := (pair b).Has (fun p n rest => p.Awaits xs n rest) r rest
  self_get := by
    rintro r b rest ⟨p, n, rfl, -⟩
    rfl
  self_set := by
    rintro r b rest ⟨p, n, rfl, hp⟩ b'
    exact ⟨p, n, rfl, hp⟩
  gives b := Pair.gives_peek ((pair b).feeds_pull xs) "source"

theorem holds_fresh (xs : List α) : (host xs).Holds {} {} xs :=
  ⟨{}, 0, rfl, Peek.awaits_fresh xs⟩

/-- A buffer over a plain list of three. -/
theorem mirrors_cursor_three :
    (∀ gs, Buffer.Mirrors false (host [1, 2, 3]) gs {}
        { items := [1, 2, 3], cursor := {}, top := () })
      ∧ ∀ s, Buffer.Frugal false (host [1, 2, 3]).self (host [1, 2, 3]).source s :=
  Buffer.mirrors_cursor false (host [1, 2, 3]) (holds_fresh [1, 2, 3])

end Reel

end Cursors
