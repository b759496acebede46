/-
  Cursors.Proofs.Conversion.Lookup
  ────────────────────────────────
  **LOOKUPS THAT MAY FAIL.**

  A value whose kind has no conversion of its own is asked for its elements
  in up to three ways.  Each way calls code of the user's, and each does so
  under the same guard: a failure is noted, passed over, and the next way is
  tried.  Here a way is a piece of data, the guard is one definition, and
  the nested conversions of the workspace are shown to be the first answer
  of a list of ways:

      fromSubscripts   =   first of (subscripts, keys, own iterator),
                           else the value alone

  The rules for one guarded way and for the first of several are proved
  once.  Only requests to leave the program pass, and an answer is an
  iterator.
-/
import Cursors.Proofs.After
import Cursors.Workspace.Conversion

namespace Cursors.Workspace

/-! ## §1. What a conversion is to come to. -/

/-- An iterator, or a failure that may not be caught. -/
def GivesIterator : Except Failure Value → Store → Prop
  | .ok w, s => s.isIterator w = true
  | .error e, _ => e.isOrdinary = false

/-- The same, or nothing. -/
def MayGiveIterator : Except Failure (Option Value) → Store → Prop
  | .ok none, _ => True
  | .ok (some w), s => s.isIterator w = true
  | .error e, _ => e.isOrdinary = false

/-- What is put into a new cell is found there. -/
theorem Store.cell?_push (s : Store) (c : Cell) :
    Store.cell? { s with cells := s.cells.push c } (.object s.cells.size) = some c := by
  simp [Store.cell?]

theorem Store.isIterator_push {s : Store} {c : Cell}
    (hc : (∃ walk, c = .stream walk) ∨ ∃ it, c = .iterator it) :
    Store.isIterator { s with cells := s.cells.push c } (.object s.cells.size) = true := by
  unfold Store.isIterator
  rw [s.cell?_push c]
  obtain ⟨walk, rfl⟩ | ⟨it, rfl⟩ := hc <;> rfl

/-- The action comes to an answer, and that is an iterator. -/
def AnswersIterator (x : Act Store Value) (s : Store) : Prop :=
  ∃ w t, x s = .value w t ∧ t.isIterator w = true

section

variable {x : Act Store Value} {s t : Store}

theorem AnswersIterator.after (h : AnswersIterator x s) : x.After s GivesIterator := by
  obtain ⟨w, t, hx, hw⟩ := h
  exact Act.after_of_value hx hw

theorem answers_of_stream {walk : Stream} (h : x s = Store.alloc (.stream walk) t) :
    AnswersIterator x s :=
  ⟨_, _, h, Store.isIterator_push (.inl ⟨walk, rfl⟩)⟩

theorem answers_of_iterator {it : Iterator} (h : x s = Store.alloc (.iterator it) t) :
    AnswersIterator x s :=
  ⟨_, _, h, Store.isIterator_push (.inr ⟨it, rfl⟩)⟩

end

theorem after_singleOver (v : Value) (s : Store) : (singleOver v).After s GivesIterator :=
  (answers_of_iterator rfl).after

/-! ## §2. Guarded ways, and the first that answers. -/

/-- A way to the elements of a value. -/
structure Way where
  /-- What notes call it. -/
  name : String
  /-- Whether the value has what the way needs. -/
  isOpen : Store → Bool := fun _ => true
  /-- The iterator found on the way; the user's code may be called. -/
  call : Act Store (Option Value)

/-- Try a way; a failure that may be caught is noted and passed over. -/
def Way.attempt (v : Value) (way : Way) : Act Store (Option Value) := do
  if ← Act.reading way.isOpen then
    match ← Act.attempt Failure.isOrdinary way.call with
    | .ok found => return found
    | .error e => do
        noteFailed way.name v e
        return none
  else return none

/-- The first answer on the ways. -/
def firstOf (v : Value) : List Way → Act Store (Option Value)
  | [] => return none
  | way :: rest => do
      match ← way.attempt v with
      | some w => return some w
      | none => firstOf v rest

/-- The first answer on the ways, or else the iterator over the value alone. -/
def firstOrSingle (v : Value) (ways : List Way) : Act Store Value := do
  match ← firstOf v ways with
  | some w => return w
  | none => singleOver v

/-- Whatever a way answers is an iterator. -/
def Way.Leads (way : Way) : Prop :=
  ∀ s w t, way.call s = .value (some w) t → t.isIterator w = true

/-- The store with the failure of a way noted. -/
def Store.noting (s : Store) (way : Way) (v : Value) (e : Failure) : Store :=
  { s with
    events := .logged ("ignoring failed " ++ way.name ++ " on " ++ s.typeName v ++ ": "
      ++ e.summary) :: s.events }

section

variable {v : Value} {way : Way} {ways : List Way} {s t : Store} {e : Failure}

theorem Way.attempt_of_closed (hopen : way.isOpen s = false) :
    way.attempt v s = .value none s := by
  simp [Way.attempt, Act.bind_apply, hopen]

theorem Way.attempt_of_value {found : Option Value} (hopen : way.isOpen s = true)
    (h : way.call s = .value found t) : way.attempt v s = .value found t := by
  simp [Way.attempt, Act.bind_apply, Act.attempt, hopen, h]

theorem Way.attempt_of_caught (hopen : way.isOpen s = true) (h : way.call s = .failure e t)
    (he : e.isOrdinary = true) : way.attempt v s = .value none (t.noting way v e) := by
  simp only [Way.attempt, Act.bind_apply, Act.reading_apply, Act.attempt, hopen, h, he, if_true]
  rfl

theorem Way.attempt_of_passed (hopen : way.isOpen s = true) (h : way.call s = .failure e t)
    (he : e.isOrdinary = false) : way.attempt v s = .failure e t := by
  simp [Way.attempt, Act.bind_apply, Act.attempt, hopen, h, he]

theorem Way.attempt_of_unfinished (hopen : way.isOpen s = true) (h : way.call s = .unfinished) :
    way.attempt v s = .unfinished := by
  simp [Way.attempt, Act.bind_apply, Act.attempt, hopen, h]

/-- A guarded way lets only requests to leave the program pass. -/
theorem Way.after_attempt (hway : way.Leads) : (way.attempt v).After s MayGiveIterator := by
  cases hopen : way.isOpen s with
  | false => exact Act.after_of_value (Way.attempt_of_closed hopen) trivial
  | true =>
      cases h : way.call s with
      | value found t =>
          refine Act.after_of_value (Way.attempt_of_value hopen h) ?_
          cases found with
          | none => trivial
          | some w => exact hway s w t h
      | failure e t =>
          cases he : e.isOrdinary with
          | true => exact Act.after_of_value (Way.attempt_of_caught hopen h he) trivial
          | false => exact Act.after_of_failure (Way.attempt_of_passed hopen h he) he
      | unfinished => exact Act.after_of_unfinished (Way.attempt_of_unfinished hopen h)

/-- A guarded way comes to an end if the user's code does. -/
theorem Way.endless_of_attempt (h : way.attempt v s = .unfinished) :
    way.isOpen s = true ∧ way.call s = .unfinished := by
  cases hopen : way.isOpen s with
  | false => cases (Way.attempt_of_closed hopen).symm.trans h
  | true =>
      cases hcall : way.call s with
      | value found t => cases (Way.attempt_of_value hopen hcall).symm.trans h
      | failure e t =>
          cases he : e.isOrdinary with
          | true => cases (Way.attempt_of_caught hopen hcall he).symm.trans h
          | false => cases (Way.attempt_of_passed hopen hcall he).symm.trans h
      | unfinished => exact ⟨rfl, rfl⟩

theorem firstOf_cons_of_none (h : way.attempt v s = .value none t) :
    firstOf v (way :: ways) s = firstOf v ways t := by
  simp only [firstOf, Act.bind_apply, h]

theorem firstOf_cons_of_some {w : Value} (h : way.attempt v s = .value (some w) t) :
    firstOf v (way :: ways) s = .value (some w) t := by
  simp [firstOf, Act.bind_apply, h]

/-- Nor does a search along several ways let anything else pass. -/
theorem after_firstOf (hways : ∀ way ∈ ways, way.Leads) :
    (firstOf v ways).After s MayGiveIterator := by
  induction ways generalizing s with
  | nil => exact Act.after_pure trivial
  | cons way rest ih =>
      refine (Way.after_attempt (hways way (by simp))).bind (fun found t hfound => ?_)
        fun e t he => he
      cases found with
      | none => exact ih fun way hmem => hways way (by simp [hmem])
      | some w => exact Act.after_pure hfound

theorem after_firstOrSingle (hways : ∀ way ∈ ways, way.Leads) :
    (firstOrSingle v ways).After s GivesIterator := by
  refine (after_firstOf hways).bind (fun found t hfound => ?_) fun e t he => he
  cases found with
  | none => exact after_singleOver v t
  | some w => exact Act.after_pure hfound

/-- If the search does not come to an end, then the user's code on one of the ways does not,
after no way before it has answered. -/
theorem exists_of_firstOf_unfinished (h : firstOf v ways s = .unfinished) :
    ∃ before way after t, ways = before ++ way :: after ∧ firstOf v before s = .value none t ∧
      way.isOpen t = true ∧ way.call t = .unfinished := by
  induction ways generalizing s with
  | nil => cases h
  | cons way rest ih =>
      cases hattempt : way.attempt v s with
      | value found t =>
          cases found with
          | none =>
              -- This way has come to an end, so it is a later one that does not.
              rw [firstOf_cons_of_none hattempt] at h
              obtain ⟨before, last, after, u, rfl, hbefore, hlast⟩ := ih h
              exact ⟨way :: before, last, after, u, rfl,
                (firstOf_cons_of_none hattempt).trans hbefore, hlast⟩
          | some w => cases (firstOf_cons_of_some hattempt).symm.trans h
      | failure e t => simp [firstOf, Act.bind_apply, hattempt] at h
      | unfinished => exact ⟨[], way, rest, s, rfl, rfl, Way.endless_of_attempt hattempt⟩

theorem firstOrSingle_cons :
    firstOrSingle v (way :: ways) = (do
      match ← way.attempt v with
      | some w => return w
      | none => firstOrSingle v ways) := by
  funext s
  simp only [firstOrSingle, firstOf, Act.bind_apply]
  cases way.attempt v s with
  | value found t => cases found <;> rfl
  | failure e t => rfl
  | unfinished => rfl

theorem firstOrSingle_cons_of_none (h : way.attempt v s = .value none t) :
    firstOrSingle v (way :: ways) s = firstOrSingle v ways t := by
  simp only [firstOrSingle_cons, Act.bind_apply, h]

/-- A guarded call, whose answer `g` goes on with and whose failure is noted, is the attempt on a
way. -/
theorem attempt_bind_eq {β γ : Type} {x : Act Store β} {g : β → Act Store (Option Value)}
    {k : Option Value → Act Store γ} {next : Except Failure β → Act Store γ}
    (hopen : way.isOpen s = true) (hcall : way.call = x >>= g)
    (htotal : ∀ a t, ∃ found t', g a t = .value found t')
    (hok : ∀ a, next (.ok a) = g a >>= k)
    (herror : ∀ e, next (.error e) = do
      noteFailed way.name v e
      k none) :
    (Act.attempt Failure.isOrdinary x >>= next) s = (way.attempt v >>= k) s := by
  cases hx : x s with
  | value a t =>
      obtain ⟨found, t', hg⟩ := htotal a t
      have hway : way.call s = .value found t' := by rw [hcall, Act.bind_apply, hx]; exact hg
      simp only [Act.bind_apply, Act.attempt, hx, hok, hg, Way.attempt_of_value hopen hway]
  | failure e t =>
      have hway : way.call s = .failure e t := by rw [hcall, Act.bind_apply, hx]
      cases he : e.isOrdinary with
      | true =>
          simp only [Act.bind_apply, Act.attempt, hx, he, if_true, herror,
            Way.attempt_of_caught hopen hway he]
          rfl
      | false =>
          simp [Act.bind_apply, Act.attempt, hx, he, Way.attempt_of_passed hopen hway he]
  | unfinished =>
      have hway : way.call s = .unfinished := by rw [hcall, Act.bind_apply, hx]
      simp only [Act.bind_apply, Act.attempt, hx, Way.attempt_of_unfinished hopen hway]

end

/-! ## §3. The three ways. -/

/-- By subscripts, for a value that offers nothing else. -/
def subscriptsWay (run : Runner) (v : Value) : Way where
  name := "item iteration"
  isOpen s := (s.outfit v).lookup && !(s.outfit v).walk && !(s.outfit v).keys
  call := do return some (← Store.alloc (.iterator (.peek (← run (.walk v)) {})))

/-- By the keys, all taken at once, for a value that has keys and subscripts. -/
def keysWay (run : Runner) (fuel : Nat) (v : Value) : Way where
  name := "keys lookup"
  isOpen s := (s.outfit v).keys && (s.outfit v).lookup
  call := do return some (← Store.alloc (.stream (.lookups v (← keysOf run fuel v))))

/-- By the iterator that the value itself gives, if it is one. -/
def ownWay (run : Runner) (v : Value) : Way where
  name := "iterator lookup"
  call := do
    match ← ownIterator run v with
    | none => return none
    | some given =>
        if ← Act.reading (·.isIterator given) then return some given
        else do
          noteNoIterator given v
          return none

/-- The ways to the elements of a value whose kind has no conversion of its own. -/
def lookupWays (run : Runner) (fuel : Nat) (v : Value) : List Way :=
  [subscriptsWay run v, keysWay run fuel v, ownWay run v]

/-- A way that puts what it builds into a new cell leads to it. -/
theorem Way.leads_of_alloc {β : Type} {way : Way} {x : Act Store β} (build : β → Cell)
    (hcall : way.call = do return some (← Store.alloc (build (← x))))
    (hbuild : ∀ a, (∃ walk, build a = .stream walk) ∨ ∃ it, build a = .iterator it) :
    way.Leads := by
  intro s w t h
  rw [hcall, Act.bind_apply] at h
  cases hx : x s with
  | value a s₁ =>
      rw [hx] at h
      cases h
      exact Store.isIterator_push (hbuild a)
  | failure e s₁ =>
      rw [hx] at h
      cases h
  | unfinished =>
      rw [hx] at h
      cases h

section

variable (run : Runner) (fuel : Nat) (v : Value)

theorem ownWay_leads : (ownWay run v).Leads := by
  intro s w t h
  simp only [ownWay, Act.bind_apply] at h
  cases hown : ownIterator run v s with
  | value found s₁ =>
      rw [hown] at h
      cases found with
      | none => cases h
      | some given =>
          simp only [Act.bind_apply, Act.reading_apply] at h
          cases hgiven : s₁.isIterator given with
          | true =>
              rw [hgiven] at h
              cases h
              exact hgiven
          | false =>
              rw [hgiven] at h
              cases h
  | failure e s₁ =>
      rw [hown] at h
      cases h
  | unfinished =>
      rw [hown] at h
      cases h

theorem lookupWays_lead : ∀ way ∈ lookupWays run fuel v, way.Leads := by
  intro way hmem
  simp only [lookupWays, List.mem_cons, List.not_mem_nil, or_false] at hmem
  obtain rfl | rfl | rfl := hmem
  · exact Way.leads_of_alloc (fun walk => .iterator (.peek walk {})) rfl
      fun _ => .inr ⟨_, rfl⟩
  · exact Way.leads_of_alloc (fun keys => .stream (.lookups v keys)) rfl
      fun _ => .inl ⟨_, rfl⟩
  · exact ownWay_leads run v

/-! ## §4. The conversions of the workspace are such searches. -/

theorem lookUpIterator_eq : lookUpIterator run v = (ownWay run v).attempt v := by
  funext s
  rw [← bind_pure ((ownWay run v).attempt v)]
  refine attempt_bind_eq rfl rfl (fun found t => ?_) (fun found => ?_) fun _ => rfl
  · cases found with
    | none => exact ⟨_, _, rfl⟩
    | some given =>
        cases hgiven : t.isIterator given with
        | true => exact ⟨some given, t, by simp [Act.bind_apply, hgiven]⟩
        | false =>
            simp only [Act.bind_apply, Act.reading_apply, hgiven]
            exact ⟨_, _, rfl⟩
  · rw [bind_pure]
    cases found <;> rfl

theorem fromOwnIterator_eq : fromOwnIterator run v = firstOrSingle v [ownWay run v] := by
  rw [firstOrSingle_cons, fromOwnIterator, lookUpIterator_eq]
  rfl

theorem fromKeys_eq :
    fromKeys run fuel v = firstOrSingle v [keysWay run fuel v, ownWay run v] := by
  funext s
  simp only [fromKeys, fromOwnIterator_eq, Act.bind_apply, Act.reading_apply]
  cases hopen : (keysWay run fuel v).isOpen s with
  | true =>
      rw [if_pos (by exact hopen)]
      -- What the conversion goes on with after a failure is the rest of the search.
      refine Eq.trans ?_ (congrFun firstOrSingle_cons s).symm
      exact attempt_bind_eq hopen rfl (fun _ _ => ⟨_, _, rfl⟩) (fun _ => rfl) fun _ => rfl
  | false =>
      rw [if_neg (by exact Bool.eq_false_iff.mp hopen),
        firstOrSingle_cons_of_none (Way.attempt_of_closed hopen)]

/-- The search through all three ways. -/
theorem fromSubscripts_eq :
    fromSubscripts run fuel v = firstOrSingle v (lookupWays run fuel v) := by
  funext s
  simp only [fromSubscripts, fromKeys_eq, lookupWays, Act.bind_apply, Act.reading_apply]
  cases hopen : (subscriptsWay run v).isOpen s with
  | true =>
      rw [if_pos (by exact hopen)]
      refine Eq.trans ?_ (congrFun firstOrSingle_cons s).symm
      exact attempt_bind_eq hopen rfl (fun _ _ => ⟨_, _, rfl⟩) (fun _ => rfl) fun _ => rfl
  | false =>
      rw [if_neg (by exact Bool.eq_false_iff.mp hopen),
        firstOrSingle_cons_of_none (Way.attempt_of_closed hopen)]

end

end Cursors.Workspace
