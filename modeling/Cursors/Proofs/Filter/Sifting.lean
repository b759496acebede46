/-
  Cursors.Proofs.Filter.Sifting
  ─────────────────────────────
  **A FILTER LOOKS AT EACH ELEMENT ONCE.**

  The predicate is pure and may fail; a log beside the state lists the
  elements on which it was called.  One scan over what is left of the source
  ends in one of three ways:

      found      at the first match, behind rejected elements
      failed     at the first failure, behind rejected elements
      exhausted  at the end, all that was left being rejected

  A question and a step scan in the same way, and only where no match is
  held; what the scan went over is never gone over again.

  Main result (`sifts_source`): in every run of questions and steps, over
  every source that gives a finite list, the log is a beginning of the list,
  the matches in it are those returned and the one held, and each call is a
  turn of this kind.  Steps as many as there are elements return all matches.
-/
import Cursors.Proofs.After
import Cursors.Proofs.Guard
import Cursors.Proofs.Pipeline.Denotation
import Cursors.Proofs.Supply

namespace Cursors

namespace Filter

variable {σ α : Type}

/-! ## §1. Scans. -/

/-- The predicate fails on an element. -/
def failing (verdict : α → Except Failure Bool) (x : α) : Bool := !(verdict x).isOk

/-- A scan that goes over `seg`, where `rest` is left after it, comes to a match, to a failure as
it is `raised` at an element, or to nothing. -/
inductive Scan (verdict : α → Except Failure Bool) (raised : α → Failure → Failure) :
    List α → List α → Except Failure (Option α) → Prop where
  | found {pre rest : List α} {x : α} (hpre : ∀ y ∈ pre, verdict y = .ok false)
      (hx : verdict x = .ok true) : Scan verdict raised (pre ++ [x]) rest (.ok (some x))
  | failed {pre rest : List α} {x : α} {e : Failure} (hpre : ∀ y ∈ pre, verdict y = .ok false)
      (hx : verdict x = .error e) : Scan verdict raised (pre ++ [x]) rest (.error (raised x e))
  | exhausted {pre : List α} (hpre : ∀ y ∈ pre, verdict y = .ok false) :
      Scan verdict raised pre [] (.ok none)

section

variable {verdict : α → Except Failure Bool} {raised : α → Failure → Failure}
  {seg rest : List α} {r : Except Failure (Option α)}

/-- A scan goes on behind a rejected element. -/
theorem Scan.cons {y : α} (hy : verdict y = .ok false) (h : Scan verdict raised seg rest r) :
    Scan verdict raised (y :: seg) rest r := by
  have hcons : ∀ {pre : List α}, (∀ w ∈ pre, verdict w = .ok false) →
      ∀ w ∈ y :: pre, verdict w = .ok false :=
    fun hpre => List.forall_mem_cons.mpr ⟨hy, hpre⟩
  cases h with
  | found hpre hx => exact .found (hcons hpre) hx
  | failed hpre hx => exact .failed (hcons hpre) hx
  | exhausted hpre => exact .exhausted (hcons hpre)

theorem countP_failing_of_rejected {pre : List α} (hpre : ∀ y ∈ pre, verdict y = .ok false) :
    pre.countP (failing verdict) = 0 := by
  rw [List.countP_eq_zero]
  intro y hy
  rw [failing, hpre y hy]
  decide

/-- The matches that a scan goes over: the one that it comes to, if any. -/
theorem Scan.filter_eq (h : Scan verdict raised seg rest r) :
    seg.filter (matching verdict) = (sighted r).toList := by
  cases h with
  | found hpre hx =>
      rw [List.filter_append, filter_of_rejected hpre,
        List.filter_cons_of_pos (matching_of_match hx)]
      rfl
  | failed hpre hx =>
      rw [List.filter_append, filter_of_rejected hpre, List.filter_cons_of_neg]
      · rfl
      · rw [matching_of_error hx]
        exact Bool.false_ne_true
  | exhausted hpre => exact filter_of_rejected hpre

/-- A scan that comes neither to a match nor to a failure has gone over all that was left. -/
theorem Scan.progress (h : Scan verdict raised seg rest r) :
    1 ≤ (sighted r).toList.length + seg.countP (failing verdict) ∨ rest = [] ∧ r = .ok none := by
  cases h with
  | found hpre hx => exact .inl (Nat.le_add_right 1 _)
  | @failed pre _ x _ hpre hx =>
      have hfails : failing verdict x = true := by rw [failing, hx]; rfl
      refine .inl ?_
      rw [List.countP_append, countP_failing_of_rejected hpre, List.countP_cons_of_pos hfails]
      exact Nat.le_add_left 1 _
  | exhausted hpre => exact .inr ⟨rfl, rfl⟩

end

/-- No element both matches and fails. -/
theorem length_filter_add_countP_le (verdict : α → Except Failure Bool) (xs : List α) :
    (xs.filter (matching verdict)).length + xs.countP (failing verdict) ≤ xs.length := by
  rw [← List.countP_eq_length_filter]
  have hsplit := List.length_eq_countP_add_countP (matching verdict) (l := xs)
  have hmono : xs.countP (failing verdict) ≤ xs.countP fun x => decide ¬ matching verdict x := by
    apply List.countP_mono_left
    intro x _ hx
    obtain h | h | ⟨e, h⟩ := verdict_cases verdict x
    · simp [failing, h, Except.isOk, Except.toBool] at hx
    · simp [failing, h, Except.isOk, Except.toBool] at hx
    · simp [matching_of_error h]
  omega

/-! ## §2. Sieves. -/

/-- The predicate, with a log of its calls beside the state. -/
def logged (verdict : α → Except Failure Bool) (x : α) : Act (σ × List α) Bool :=
  fun s => .of (verdict x) (s.1, s.2 ++ [x])

/-- A filter over the source of a host, with the log of its predicate. -/
def sieve (host : Host σ (Filter α) α) (mode : Mode) (report : α → Except Failure String)
    (verdict : α → Except Failure Bool) (fuel : Nat) : Forward (σ × List α) α :=
  forward fuel (Field.left.comp host.self) (host.source.within Field.left)
    ((Guard.steady mode report).call (logged verdict))

section

variable {host : Host σ (Filter α) α} {mode : Mode} {report : α → Except Failure String}
  {verdict : α → Except Failure Bool} {fuel : Nat} {s : σ} {log rest : List α} {t : Filter α}

theorem call_logged_of_ok {x : α} {b : Bool} (hx : verdict x = .ok b) (s : σ) (log : List α) :
    (Guard.steady mode report).call (logged verdict) x (s, log) = .value b (s, log ++ [x]) :=
  Guard.call_of_value (by rw [logged, hx]; rfl)

theorem call_logged_of_error {x : α} {e : Failure} (hx : verdict x = .error e) (s : σ)
    (log : List α) :
    (Guard.steady mode report).call (logged verdict) x (s, log)
      = .failure (Guard.raised mode report x e) (s, log ++ [x]) :=
  Guard.call_of_failure (by rw [logged, hx]; rfl)

/-- A search scans what the source has left. -/
theorem search_of_holds (mode : Mode) (report : α → Except Failure String)
    (verdict : α → Except Failure Bool) (log : List α) (h : host.Holds s t rest)
    (hfuel : rest.length < fuel) :
    ∃ s' seg rest' r,
      search (host.source.within Field.left).hasNext (host.source.within Field.left).next
          ((Guard.steady mode report).call (logged verdict)) fuel (s, log)
        = .of r (s', log ++ seg)
      ∧ host.Holds s' t rest' ∧ rest = seg ++ rest'
      ∧ Scan verdict (Guard.raised mode report) seg rest' r := by
  -- The induction is on what is left; each round takes one element and logs it.
  induction rest generalizing s log fuel with
  | nil =>
      obtain ⟨fuel, rfl⟩ := Nat.exists_eq_succ_of_ne_zero (Nat.ne_zero_of_lt hfuel)
      obtain ⟨s', hmore, h'⟩ := (host.gives t).hasNext_apply h
      refine ⟨s', [], [], .ok none, ?_, h', rfl, .exhausted (List.forall_mem_nil _)⟩
      have hmore' : (host.source.within Field.left).hasNext (s, log) = .of (.ok false) (s', log) :=
        Act.within_of (r := .ok false) hmore
      rw [search, Act.bind_apply, hmore', List.append_nil]
      rfl
  | cons x rest ih =>
      obtain ⟨fuel, rfl⟩ := Nat.exists_eq_succ_of_ne_zero (Nat.ne_zero_of_lt hfuel)
      obtain ⟨s₁, hmore, h₁⟩ := (host.gives t).hasNext_apply h
      obtain ⟨s₂, hnext, h₂⟩ := (host.gives t).next_of_cons h₁
      have hmore' : (host.source.within Field.left).hasNext (s, log) = .of (.ok true) (s₁, log) :=
        Act.within_of (r := .ok true) hmore
      have hnext' : (host.source.within Field.left).next (s₁, log) = .of (.ok x) (s₂, log) :=
        Act.within_of (r := .ok x) hnext
      rw [search, Act.bind_apply, hmore']
      simp only [Outcome.of, if_true, Act.bind_apply, hnext']
      obtain hx | hx | ⟨e, hx⟩ := verdict_cases verdict x
      · rw [call_logged_of_ok hx]
        exact ⟨s₂, [x], rest, .ok (some x), rfl, h₂, rfl, .found (List.forall_mem_nil _) hx⟩
      · obtain ⟨s', seg, rest', r, hsearch, h', rfl, hscan⟩ :=
          ih (log ++ [x]) h₂ (Nat.lt_of_succ_lt_succ hfuel)
        rw [List.append_assoc, List.singleton_append] at hsearch
        rw [call_logged_of_ok hx]
        simp only [Bool.false_eq_true, if_false]
        exact ⟨s', x :: seg, rest', r, hsearch, h', rfl, hscan.cons hx⟩
      · rw [call_logged_of_error hx]
        exact ⟨s₂, [x], rest, .error _, rfl, h₂, rfl, .failed (List.forall_mem_nil _) hx⟩

theorem ask_hasNext_of_held {x : α} (h : host.Holds s { ahead := some x } rest) :
    Merge.Draw.hasNext.ask (sieve host mode report verdict fuel) (s, log)
      = .of (.ok (.truth true)) (s, log) := by
  have hask : (sieve host mode report verdict fuel).hasNext (s, log) = .of (.ok true) (s, log) := by
    have hself : (Field.left.comp host.self).get (s, log) = { ahead := some x } := host.self_get h
    simp only [sieve, forward, hasNext, Act.bind_apply, Field.read_apply, hself,
      Option.isSome_some, if_true]
    rfl
  exact Act.map_of Answer.truth hask

theorem ask_next_of_held {x : α} (h : host.Holds s { ahead := some x } rest) :
    Merge.Draw.next.ask (sieve host mode report verdict fuel) (s, log)
      = .of (.ok (.element x)) (host.self.set {} s, log) := by
  have hask : (sieve host mode report verdict fuel).next (s, log)
      = .of (.ok x) (host.self.set {} s, log) := by
    have hself : (Field.left.comp host.self).get (s, log) = { ahead := some x } := host.self_get h
    simp only [sieve, forward, next, Act.bind_apply, Field.read_apply, hself]
    rfl
  exact Act.map_of Answer.element hask

/-- A question that finds no match held scans, and holds the match that it comes to. -/
theorem ask_hasNext_of_free (mode : Mode) (report : α → Except Failure String)
    (verdict : α → Except Failure Bool) (log : List α) (h : host.Holds s {} rest)
    (hfuel : rest.length < fuel) :
    ∃ s' seg rest' r, Merge.Draw.hasNext.ask (sieve host mode report verdict fuel) (s, log)
        = .of ((r.map Option.isSome).map .truth) (s', log ++ seg)
      ∧ host.Holds s' { ahead := sighted r } rest' ∧ rest = seg ++ rest'
      ∧ Scan verdict (Guard.raised mode report) seg rest' r := by
  obtain ⟨s', seg, rest', r, hsearch, h', hrest, hscan⟩ :=
    search_of_holds mode report verdict log h hfuel
  have hself : (Field.left.comp host.self).get (s, log) = {} := host.self_get h
  -- Only a match is written into the filter.
  have hask : ∃ s'', (sieve host mode report verdict fuel).hasNext (s, log)
      = .of (r.map Option.isSome) (s'', log ++ seg)
      ∧ host.Holds s'' { ahead := sighted r } rest' := by
    simp only [sieve, forward, hasNext, Act.bind_apply, Field.read_apply, hself,
      Option.isSome_none, Bool.false_eq_true, if_false, hsearch]
    rcases r with e | (_ | x)
    · exact ⟨s', rfl, h'⟩
    · exact ⟨s', rfl, h'⟩
    · exact ⟨_, rfl, host.self_set h' _⟩
  obtain ⟨s'', hask, h''⟩ := hask
  exact ⟨s'', seg, rest', r, Act.map_of Answer.truth hask, h'', hrest, hscan⟩

/-- A step that finds no match held scans, and returns the match that it comes to. -/
theorem ask_next_of_free (mode : Mode) (report : α → Except Failure String)
    (verdict : α → Except Failure Bool) (log : List α) (h : host.Holds s {} rest)
    (hfuel : rest.length < fuel) :
    ∃ s' seg rest' r, Merge.Draw.next.ask (sieve host mode report verdict fuel) (s, log)
        = .of ((taken r).map .element) (s', log ++ seg)
      ∧ host.Holds s' {} rest' ∧ rest = seg ++ rest'
      ∧ Scan verdict (Guard.raised mode report) seg rest' r := by
  obtain ⟨s', seg, rest', r, hsearch, h', hrest, hscan⟩ :=
    search_of_holds mode report verdict log h hfuel
  have hself : (Field.left.comp host.self).get (s, log) = {} := host.self_get h
  have hask : ∃ s'', (sieve host mode report verdict fuel).next (s, log)
      = .of (taken r) (s'', log ++ seg) ∧ host.Holds s'' {} rest' := by
    simp only [sieve, forward, next, Act.bind_apply, Field.read_apply, hself, hsearch]
    rcases r with e | (_ | x)
    · exact ⟨s', rfl, h'⟩
    · exact ⟨s', rfl, h'⟩
    · exact ⟨_, rfl, host.self_set h' _⟩
  obtain ⟨s'', hask, h''⟩ := hask
  exact ⟨s'', seg, rest', r, Act.map_of Answer.element hask, h'', hrest, hscan⟩

end

/-! ## §3. Turns. -/

/-- What one call does with a held match, with the elements `seg` that it goes over and with
those that are left then. -/
inductive Turn (verdict : α → Except Failure Bool) (raised : α → Failure → Failure) :
    Merge.Draw → Option α → List α → List α → Except Failure (Answer α) → Option α → Prop where
  /-- A match is held, and is reported. -/
  | told {x : α} {rest : List α} :
      Turn verdict raised .hasNext (some x) [] rest (.ok (.truth true)) (some x)
  /-- A match is held, and is returned. -/
  | handed {x : α} {rest : List α} :
      Turn verdict raised .next (some x) [] rest (.ok (.element x)) none
  /-- A question looks for a match, and holds it. -/
  | asked {seg rest : List α} {r : Except Failure (Option α)}
      (hscan : Scan verdict raised seg rest r) :
      Turn verdict raised .hasNext none seg rest ((r.map Option.isSome).map .truth) (sighted r)
  /-- A step looks for a match, and returns it. -/
  | stepped {seg rest : List α} {r : Except Failure (Option α)}
      (hscan : Scan verdict raised seg rest r) :
      Turn verdict raised .next none seg rest ((taken r).map .element) none

/-- What a run has come to: the elements returned, and the number of steps. -/
structure Harvest (α : Type) where
  returned : List α := []
  steps : Nat := 0

/-- The harvest after a call. -/
def Harvest.note (l : Harvest α) : Merge.Draw → Except Failure (Answer α) → Harvest α
  | .next, .ok (.element x) => { returned := l.returned ++ [x], steps := l.steps + 1 }
  | .next, _ => { l with steps := l.steps + 1 }
  | .hasNext, _ => l

theorem Harvest.note_next (l : Harvest α) (r : Except Failure (Option α)) :
    l.note .next ((taken r).map .element)
      = { returned := l.returned ++ (sighted r).toList, steps := l.steps + 1 } := by
  rcases r with e | (_ | x)
  · exact congrArg (Harvest.mk · (l.steps + 1)) (List.append_nil _).symm
  · exact congrArg (Harvest.mk · (l.steps + 1)) (List.append_nil _).symm
  · rfl

/-- A call that finds the match `held`, goes over `seg`, leaves `rest` and holds `held'`. -/
structure Sifted (verdict : α → Except Failure Bool) (raised : α → Failure → Failure)
    (xs : List α) (l : Harvest α) (call : Merge.Draw) (s : σ × List α)
    (r : Except Failure (Answer α)) (s' : σ × List α) (held : Option α) (seg rest : List α)
    (held' : Option α) : Prop where
  /-- The predicate was called on a beginning of the list before, and is now called on `seg`. -/
  eq_append : xs = s.2 ++ seg ++ rest
  log_eq : s'.2 = s.2 ++ seg
  turn : Turn verdict raised call held seg rest r held'
  /-- The matches so far were returned, but for the one that is held. -/
  matches_before : s.2.filter (matching verdict) = l.returned ++ held.toList
  matches_after : s'.2.filter (matching verdict) = (l.note call r).returned ++ held'.toList
  /-- A question with a match held touches nothing. -/
  still : call = .hasNext → held.isSome → s' = s
  /-- Steps as many as there are elements go over the whole list and return all matches. -/
  complete : xs.length ≤ (l.note call r).steps →
    s'.2 = xs ∧ (l.note call r).returned = xs.filter (matching verdict)

/-- A call of a filter over `xs` examines what it has to, and nothing twice. -/
def Sifts (verdict : α → Except Failure Bool) (raised : α → Failure → Failure) (xs : List α)
    (l : Harvest α) (call : Merge.Draw) (s : σ × List α) (r : Except Failure (Answer α))
    (s' : σ × List α) : Prop :=
  ∃ held seg rest held', Sifted verdict raised xs l call s r s' held seg rest held'

/-! ## §4. Runs. -/

/-- The state of a sieve over `xs` from which `rest` is left, with its harvest so far. -/
structure Fits (host : Host σ (Filter α) α) (verdict : α → Except Failure Bool) (xs : List α)
    (l : Harvest α) (s : σ × List α) (held : Option α) (rest : List α) : Prop where
  holds : host.Holds s.1 { ahead := held } rest
  eq_append : xs = s.2 ++ rest
  matches_eq : s.2.filter (matching verdict) = l.returned ++ held.toList
  /-- Until nothing is left, each step returned a match or came to a failure. -/
  steps_le : (rest = [] ∧ held = none) ∨ l.steps ≤ l.returned.length + s.2.countP (failing verdict)

section

variable {host : Host σ (Filter α) α} {mode : Mode} {report : α → Except Failure String}
  {verdict : α → Except Failure Bool} {fuel : Nat} {xs : List α} {l : Harvest α}
  {s s' : σ × List α} {held held' : Option α} {seg rest left : List α} {call : Merge.Draw}
  {raised : α → Failure → Failure} {r : Except Failure (Answer α)}
  {found : Except Failure (Option α)}

theorem Fits.complete (h : Fits host verdict xs l s held rest) (hsteps : xs.length ≤ l.steps) :
    s.2 = xs ∧ l.returned = xs.filter (matching verdict) := by
  have hxs := congrArg List.length h.eq_append
  have hreturned := congrArg List.length h.matches_eq
  have hbound := length_filter_add_countP_le verdict s.2
  rw [List.length_append] at hxs hreturned
  -- Where every step was of use, there are no elements but those that the steps came to.
  have hdone : rest = [] ∧ held = none := by
    rcases h.steps_le with hdone | hle
    · exact hdone
    · refine ⟨List.length_eq_zero_iff.mp (by omega), ?_⟩
      cases held with
      | none => rfl
      | some x =>
          rw [Option.toList_some, List.length_singleton] at hreturned
          omega
  obtain ⟨rfl, rfl⟩ := hdone
  have hall : s.2 = xs := by rw [h.eq_append, List.append_nil]
  refine ⟨hall, ?_⟩
  rw [← hall, h.matches_eq, Option.toList_none, List.append_nil]

/-- A turn from one fitting state to another is all that is said of a call. -/
theorem Fits.sifted (h : Fits host verdict xs l s held left)
    (hturn : Turn verdict raised call held seg rest r held') (hleft : left = seg ++ rest)
    (h' : Fits host verdict xs (l.note call r) s' held' rest) (hlog : s'.2 = s.2 ++ seg)
    (hstill : call = .hasNext → held.isSome → s' = s) :
    Sifts verdict raised xs l call s r s' :=
  ⟨held, seg, rest, held', {
    eq_append := by rw [List.append_assoc, ← hleft, ← h.eq_append]
    log_eq := hlog
    turn := hturn
    matches_before := h.matches_eq
    matches_after := h'.matches_eq
    still := hstill
    complete := h'.complete }⟩

/-- A match that is held is returned. -/
theorem Fits.handed {x : α} (h : Fits host verdict xs l s (some x) rest) :
    Fits host verdict xs (l.note .next (.ok (.element x))) (host.self.set {} s.1, s.2) none
      rest where
  holds := host.self_set h.holds {}
  eq_append := h.eq_append
  matches_eq := by
    rw [h.matches_eq]
    exact (List.append_nil _).symm
  steps_le := by
    rcases h.steps_le with hdone | hle
    · exact absurd hdone.2 (by simp)
    · refine .inr ?_
      show l.steps + 1 ≤ (l.returned ++ [x]).length + s.2.countP (failing verdict)
      rw [List.length_append, List.length_singleton]
      omega

/-- A question scans and holds what it comes to. -/
theorem Fits.asked (h : Fits host verdict xs l s none (seg ++ rest))
    (hscan : Scan verdict raised seg rest found) {t : σ}
    (ht : host.Holds t { ahead := sighted found } rest) :
    Fits host verdict xs l (t, s.2 ++ seg) (sighted found) rest where
  holds := ht
  eq_append := by rw [List.append_assoc, ← h.eq_append]
  matches_eq := by
    rw [List.filter_append, h.matches_eq, hscan.filter_eq, Option.toList_none, List.append_nil]
  steps_le := by
    rcases h.steps_le with ⟨hnil, -⟩ | hle
    · -- Nothing was left, so that there is nothing to find.
      obtain ⟨rfl, rfl⟩ := List.append_eq_nil_iff.mp hnil
      have hnone := hscan.filter_eq
      rw [List.filter_nil] at hnone
      exact .inl ⟨rfl, Option.toList_eq_nil_iff.mp hnone.symm⟩
    · refine .inr ?_
      rw [List.countP_append]
      omega

/-- A step scans and returns what it comes to. -/
theorem Fits.stepped (h : Fits host verdict xs l s none (seg ++ rest))
    (hscan : Scan verdict raised seg rest found) {t : σ} (ht : host.Holds t {} rest) :
    Fits host verdict xs (l.note .next ((taken found).map .element)) (t, s.2 ++ seg) none
      rest where
  holds := ht
  eq_append := by rw [List.append_assoc, ← h.eq_append]
  matches_eq := by
    rw [l.note_next, List.filter_append, h.matches_eq, hscan.filter_eq, Option.toList_none,
      List.append_nil, List.append_nil]
  steps_le := by
    rw [l.note_next, List.length_append, List.countP_append]
    rcases h.steps_le with ⟨hnil, -⟩ | hle
    · exact .inl ⟨(List.append_eq_nil_iff.mp hnil).2, rfl⟩
    · rcases hscan.progress with hone | ⟨hnil, -⟩
      · refine .inr ?_
        show l.steps + 1 ≤ _
        omega
      · exact .inl ⟨hnil, rfl⟩

/-- A call is a turn, and leaves the sieve fitting. -/
theorem Fits.ask (h : Fits host verdict xs l s held rest) (hfuel : xs.length < fuel)
    (call : Merge.Draw) :
    ∃ r s', call.ask (sieve host mode report verdict fuel) s = .of r s'
      ∧ Sifts verdict (Guard.raised mode report) xs l call s r s'
      ∧ ∃ held' rest', Fits host verdict xs (l.note call r) s' held' rest' := by
  have hrest : rest.length < fuel := by
    have hxs := congrArg List.length h.eq_append
    rw [List.length_append] at hxs
    omega
  match call, held with
  | .hasNext, some x =>
      have hsifts : Sifts verdict (Guard.raised mode report) xs l .hasNext s (.ok (.truth true))
          s :=
        h.sifted .told rfl h (List.append_nil _).symm (fun _ _ => rfl)
      exact ⟨_, s, ask_hasNext_of_held h.holds, hsifts, some x, rest, h⟩
  | .next, some x =>
      have hsifts : Sifts verdict (Guard.raised mode report) xs l .next s (.ok (.element x))
          (host.self.set {} s.1, s.2) :=
        h.sifted .handed rfl h.handed (List.append_nil _).symm (fun hcall => nomatch hcall)
      exact ⟨_, _, ask_next_of_held h.holds, hsifts, none, rest, h.handed⟩
  | .hasNext, none =>
      obtain ⟨t, seg, rest', found, hask, ht, rfl, hscan⟩ :=
        ask_hasNext_of_free mode report verdict s.2 h.holds hrest
      have h' := h.asked hscan ht
      have hsifts := h.sifted (.asked hscan) rfl h' rfl (fun _ hheld => nomatch hheld)
      exact ⟨_, _, hask, hsifts, _, rest', h'⟩
  | .next, none =>
      obtain ⟨t, seg, rest', found, hask, ht, rfl, hscan⟩ :=
        ask_next_of_free mode report verdict s.2 h.holds hrest
      have h' := h.stepped hscan ht
      have hsifts := h.sifted (.stepped hscan) rfl h' rfl (fun hcall => nomatch hcall)
      exact ⟨_, _, hask, hsifts, none, rest', h'⟩

end

/-- Over every source that gives a finite list, a filter calls its predicate once on each element
that it has to examine, in order; each failure is told once, and all matches are returned once, in
order. -/
theorem sifts_source (host : Host σ (Filter α) α) (mode : Mode)
    (report : α → Except Failure String) (verdict : α → Except Failure Bool) {s : σ}
    {xs : List α} {fuel : Nat} (calls : List Merge.Draw) (h : host.Holds s {} xs)
    (hfuel : xs.length < fuel) :
    Throughout (Merge.Draw.ask (sieve host mode report verdict fuel))
      (fun l call _ r _ => l.note call r) (Sifts verdict (Guard.raised mode report) xs) calls {}
      (s, []) := by
  have hstart : Fits host verdict xs {} (s, []) none xs := ⟨h, rfl, rfl, .inr (Nat.le_refl 0)⟩
  apply throughout_of_invariant (fun _ l s => ∃ held rest, Fits host verdict xs l s held rest) ?_
    ⟨none, xs, hstart⟩
  rintro k l s call - ⟨held, rest, hfits⟩
  exact hfits.ask hfuel call

/-! ## §5. A filter on a cursor. -/

/-- A filter on a cursor in a list. -/
def onCursor : Host (Bench α (Filter α)) (Filter α) α where
  self := Bench.self
  source := Bench.source.toForward
  Holds b t rest := b.top = t ∧ ∃ bound z, b.Shows bound z ∧ z.front = rest
  self_get h := h.1
  self_set := by
    rintro b t rest ⟨-, bound, z, hz, hrest⟩ t'
    exact ⟨rfl, bound, z, hz.withTop t', hrest⟩
  gives t := {
    hasNext_apply := by
      rintro b rest ⟨htop, bound, z, hz, rfl⟩
      exact ⟨b, Bench.hasMore_apply hz .forward, htop, bound, z, hz, rfl⟩
    next_of_cons := by
      rintro b x rest ⟨htop, bound, z, hz, hx⟩
      obtain ⟨b', hstep, hz', htop'⟩ := Bench.step_of_toward_cons hz (d := .forward) hx
      have hrest : (z.cross .forward 1).front = rest := by
        show z.front.drop 1 = rest
        rw [hx]
        rfl
      exact ⟨b', hstep, htop'.trans htop, bound, _, hz', hrest⟩
    next_of_nil := by
      rintro b ⟨htop, bound, z, hz, hnil⟩
      exact ⟨b, Cursor.step_of_toward_nil hz.list_get hz.here_get (d := .forward) hnil, htop,
        bound, z, hz, hnil⟩ }

theorem onCursor_holds (xs : List α) :
    onCursor.Holds { items := xs, cursor := {}, top := {} } {} xs :=
  ⟨rfl, xs.length, .ofList xs 0, ⟨(Zipper.items_ofList xs 0).symm,
    Cursor.spans_ofList (Place.standsAt_plain (Nat.zero_le _)) (Nat.zero_le _) (Nat.le_refl _)⟩,
    rfl⟩

/-- A predicate that accepts the divisors of `n`, and fails on `0`. -/
def divides (n x : Nat) : Except Failure Bool :=
  if x = 0 then .error (.refused .zeroDivision) else .ok (n % x == 0)

/-- A run in which a question and a step come to a failure, matches lie before and after the
failing elements, and a held match is asked for again. -/
theorem sifts_source_divides :
    onCursor.Holds { items := [5, 3, 0, 4, 0, 7], cursor := {}, top := {} } {} [5, 3, 0, 4, 0, 7]
      ∧ Throughout
        (Merge.Draw.ask (sieve onCursor .wrap (fun _ => .ok "divides") (divides 12) 7))
        (fun l call _ r _ => l.note call r)
        (Sifts (divides 12) (Guard.raised .wrap fun _ => .ok "divides") [5, 3, 0, 4, 0, 7])
        [.hasNext, .hasNext, .next, .hasNext, .hasNext, .next, .next, .hasNext, .next] {}
        ({ items := [5, 3, 0, 4, 0, 7], cursor := {}, top := {} }, []) :=
  ⟨onCursor_holds _, sifts_source onCursor .wrap (fun _ => .ok "divides") (divides 12) _
    (onCursor_holds _) (by decide)⟩

end Filter

end Cursors
