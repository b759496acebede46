/-
  Cursors.Proofs.Chain.Order
  ──────────────────────────
  **A CHAIN ASKS ITS MEMBERS FROM LEFT TO RIGHT.**

  The members of a chain may do what they like with a world that they share:
  fail on any call, change their answers, or take elements from each other.
  What the chain asks them, and which of them deny that they have more, is
  written into a log.  Main statement (`asks_left_to_right`):

      a member is asked only once all before it have denied, and not again
      once one behind it was asked

  and from the first question or step on the members stay what they are.

  A member that uses the chain itself while it is asked is another matter:
  the chain may have moved on when it looks again (`meddler_out_of_order`).
-/
import Cursors.Combinator.Chain
import Cursors.Proofs.Machine

namespace Cursors

variable {κ σ β : Type}

/-- The state that requests lead to, one after the other, unless one of them does not end. -/
def visited (ask : κ → Act σ β) : List κ → σ → Option σ
  | [], s => some s
  | request :: requests, s =>
      match ask request s with
      | .value _ s' | .failure _ s' => visited ask requests s'
      | .unfinished => none

theorem visited_cons {ask : κ → Act σ β} {Q : σ → Prop} {request : κ} {requests : List κ}
    {s s' : σ} (hafter : (ask request).After s fun _ s₁ => Q s₁)
    (hs' : visited ask (request :: requests) s = some s') :
    ∃ s₁, Q s₁ ∧ visited ask requests s₁ = some s' := by
  unfold Act.After at hafter
  unfold visited at hs'
  cases hask : ask request s with
  | value b s₁ =>
      rw [hask] at hafter hs'
      exact ⟨s₁, hafter, hs'⟩
  | failure e s₁ =>
      rw [hask] at hafter hs'
      exact ⟨s₁, hafter, hs'⟩
  | unfinished =>
      rw [hask] at hs'
      cases hs'

/-- What every request preserves holds wherever requests lead. -/
theorem visited_of_step {ask : κ → Act σ β} {P : σ → Prop}
    (hstep : ∀ request s, P s → (ask request).After s fun _ s' => P s') {requests : List κ}
    {s s' : σ} (h : P s) (hs' : visited ask requests s = some s') : P s' := by
  induction requests generalizing s with
  | nil => exact Option.some.inj hs' ▸ h
  | cons request requests ih =>
      obtain ⟨s₁, h₁, hs₁⟩ := visited_cons (hstep request s h) hs'
      exact ih h₁ hs₁

theorem visited_append {ask : κ → Act σ β} (before after : List κ) (s : σ) :
    visited ask (before ++ after) s = (visited ask before s).bind (visited ask after) := by
  induction before generalizing s with
  | nil => rfl
  | cons request before ih =>
      rw [List.cons_append, visited, visited]
      cases ask request s with
      | value b s₁ => exact ih s₁
      | failure e s₁ => exact ih s₁
      | unfinished => rfl

namespace Chain

variable {ι ω α : Type}

/-! ## §1. What is written down. -/

/-- What becomes known of a member. -/
inductive Inquiry (ι : Type) where
  /-- It is asked for its next element, or whether there is one. -/
  | asked (m : ι)
  /-- It has answered that there is none. -/
  | denied (m : ι)
  deriving DecidableEq, Repr

/-- A chain, the log of what it has asked its members, and the world of these. -/
structure Scene (ι ω : Type) where
  chain : Chain ι := {}
  log : List (Inquiry ι) := []
  world : ω

namespace Scene

/-- The chain. -/
def own : Field (Scene ι ω) (Chain ι) where
  get := Scene.chain
  set c s := { s with chain := c }

/-- The log. -/
def book : Field (Scene ι ω) (List (Inquiry ι)) where
  get := Scene.log
  set l s := { s with log := l }

/-- The world of the members. -/
def outside : Field (Scene ι ω) ω where
  get := Scene.world
  set w s := { s with world := w }

end Scene

/-- A member of which is written down what it is asked. -/
def heard (m : ι) (source : Forward (Scene ι ω) α) : Forward (Scene ι ω) α where
  hasNext := do
    Scene.book.modify (· ++ [.asked m])
    let more ← source.hasNext
    if !more then Scene.book.modify (· ++ [.denied m])
    return more
  next := do
    Scene.book.modify (· ++ [.asked m])
    source.next
  remove := source.remove

/-- A call of a chain. -/
inductive Use (ι ω : Type) where
  /-- Add the members that this answers. -/
  | add (more : Act ω (List ι))
  | pull (call : Pull)

/-- Make a call; `note` is what becomes of the world when the chain is locked. -/
def Use.ask (member : ι → Forward (Scene ι ω) α) (note : Nat → ω → ω) :
    Use ι ω → Act (Scene ι ω) (Answer α)
  | .add more => do
      extend Scene.own (more.within Scene.outside)
      return .done
  | .pull call => call.ask (forward Scene.own member fun k => Scene.outside.modify (note k))

/-- The members, which do not use the chain themselves. -/
def aloof (sources : ι → Forward ω α) (m : ι) : Forward (Scene ι ω) α :=
  heard m ((sources m).within Scene.outside)

/-! ## §2. Logs in order. -/

/-- The first member stands somewhere before the second one. -/
def Before (names : List ι) (m' m : ι) : Prop :=
  ∃ j k : Nat, j < k ∧ names[j]? = some m' ∧ names[k]? = some m

/-- When a member was asked, all before it had denied, and none of these was asked again. -/
def InOrder (names : List ι) (log : List (Inquiry ι)) : Prop :=
  ∀ past m later, log = past ++ .asked m :: later → ∀ m', Before names m' m →
    .denied m' ∈ past ∧ .asked m' ∉ later

variable {names : List ι} {log : List (Inquiry ι)} {m m' : ι} {j k : Nat}

theorem index_unique (hnodup : names.Nodup) (hj : names[j]? = some m) (hk : names[k]? = some m) :
    j = k := by
  have hlt : j < names.length := (List.getElem?_eq_some_iff.mp hj).1
  exact (List.getElem?_inj hlt hnodup).mp (hj.trans hk.symm)

theorem inOrder_nil (names : List ι) : InOrder names [] := by
  intro past m later hlog
  exact absurd (congrArg List.length hlog) (by simp)

theorem InOrder.denied (h : InOrder names log) (m : ι) : InOrder names (log ++ [.denied m]) := by
  intro past m₁ later hlog m' hbefore
  obtain rfl | ⟨later, last, rfl⟩ := List.eq_nil_or_concat later
  · obtain ⟨-, hlast⟩ := List.append_inj' hlog rfl
    cases hlast
  · rw [List.concat_eq_append] at hlog ⊢
    rw [← List.cons_append, ← List.append_assoc] at hlog
    obtain ⟨hlog, hlast⟩ := List.append_inj' hlog rfl
    obtain ⟨hdenied, hasked⟩ := h past m₁ later hlog m' hbefore
    refine ⟨hdenied, fun hmem => ?_⟩
    obtain hmem | hmem := List.mem_append.mp hmem
    · exact hasked hmem
    · rw [← hlast] at hmem
      cases List.mem_singleton.mp hmem

/-- The member whose turn it is may be asked. -/
theorem InOrder.asked (h : InOrder names log) (hnodup : names.Nodup) (hm : names[k]? = some m)
    (hdenied : ∀ j < k, ∀ m', names[j]? = some m' → .denied m' ∈ log)
    (hasked : ∀ m', .asked m' ∈ log → ∃ j ≤ k, names[j]? = some m') :
    InOrder names (log ++ [.asked m]) := by
  intro past m₁ later hlog m' hbefore
  obtain ⟨j, k₁, hlt, hj, hk₁⟩ := hbefore
  obtain rfl | ⟨later, last, rfl⟩ := List.eq_nil_or_concat later
  · obtain ⟨rfl, hlast⟩ := List.append_inj' hlog rfl
    obtain rfl : m = m₁ := Inquiry.asked.inj (List.singleton_inj.mp hlast)
    obtain rfl := index_unique hnodup hm hk₁
    exact ⟨hdenied j hlt m' hj, List.not_mem_nil⟩
  · rw [List.concat_eq_append] at hlog ⊢
    rw [← List.cons_append, ← List.append_assoc] at hlog
    obtain ⟨hfront, hlast⟩ := List.append_inj' hlog rfl
    obtain ⟨hpast, hlater⟩ := h past m₁ later hfront m' ⟨j, k₁, hlt, hj, hk₁⟩
    refine ⟨hpast, fun hmem => ?_⟩
    obtain hmem | hmem := List.mem_append.mp hmem
    · exact hlater hmem
    · -- The member asked now would stand before one that was asked already.
      rw [← hlast] at hmem
      obtain rfl : m' = m := Inquiry.asked.inj (List.mem_singleton.mp hmem)
      obtain rfl := index_unique hnodup hm hj
      obtain ⟨k₂, hle, hk₂⟩ := hasked m₁ (by rw [hfront]; simp)
      obtain rfl := index_unique hnodup hk₁ hk₂
      omega

/-! ## §3. Where a chain stands. -/

/-- The chain was not used yet. -/
structure Unused (s : Scene ι ω) : Prop where
  locked : s.chain.locked = false
  current : s.chain.current = none
  position : s.chain.position = 0
  log : s.log = []

/-- The chain has turned to the `k`-th member, if there is one; those before it have denied, and
those behind it were not asked. -/
structure Facing (names : List ι) (k : Nat) (s : Scene ι ω) : Prop where
  locked : s.chain.locked = true
  members : s.chain.members = names
  position : s.chain.position = k
  current : s.chain.current = names[k]?
  of_none : names[k]? = none → names = []
  denied : ∀ j < k, ∀ m, names[j]? = some m → .denied m ∈ s.log
  asked : ∀ m, .asked m ∈ s.log → ∃ j ≤ k, names[j]? = some m
  inOrder : names.Nodup → InOrder names s.log

/-- The chain stands at some member. -/
def Faces (names : List ι) (s : Scene ι ω) : Prop := ∃ k, Facing names k s

variable {s : Scene ι ω}

theorem Unused.facing_nil (h : Unused s) (hmembers : s.chain.members = []) (note : ω → ω) :
    Facing [] 0 { s with chain := { s.chain with locked := true }, world := note s.world } where
  locked := rfl
  members := hmembers
  position := h.position
  current := h.current
  of_none _ := rfl
  denied j hj := absurd hj (Nat.not_lt_zero j)
  asked m hm := by
    rw [h.log] at hm
    cases hm
  inOrder _ := by
    rw [h.log]
    exact inOrder_nil []

theorem Unused.facing_first (h : Unused s) {rest : List ι} (hmembers : s.chain.members = m :: rest)
    (note : ω → ω) :
    Facing (m :: rest) 0 { s with
      chain := { s.chain with locked := true, current := some m }, world := note s.world } where
  locked := rfl
  members := hmembers
  position := h.position
  current := rfl
  of_none := nofun
  denied j hj := absurd hj (Nat.not_lt_zero j)
  asked m hm := by
    rw [h.log] at hm
    cases hm
  inOrder _ := by
    rw [h.log]
    exact inOrder_nil _

/-- What the members do to the world does not count. -/
theorem Facing.outside (h : Facing names k s) (w : ω) : Facing names k (Scene.outside.set w s) :=
  ⟨h.locked, h.members, h.position, h.current, h.of_none, h.denied, h.asked, h.inOrder⟩

/-- Nor which member gave the last element. -/
theorem Facing.lastUsed (h : Facing names k s) (m : Option ι) :
    Facing names k (Scene.own.set { s.chain with lastUsed := m } s) :=
  ⟨h.locked, h.members, h.position, h.current, h.of_none, h.denied, h.asked, h.inOrder⟩

theorem Facing.ask (h : Facing names k s) (hm : names[k]? = some m) :
    Facing names k (Scene.book.set (s.log ++ [.asked m]) s) where
  locked := h.locked
  members := h.members
  position := h.position
  current := h.current
  of_none := h.of_none
  denied j hj m' hm' := List.mem_append_left _ (h.denied j hj m' hm')
  asked m' hm' := by
    obtain hm' | hm' := List.mem_append.mp hm'
    · exact h.asked m' hm'
    · obtain rfl := Inquiry.asked.inj (List.mem_singleton.mp hm')
      exact ⟨k, Nat.le_refl k, hm⟩
  inOrder hnodup := (h.inOrder hnodup).asked hnodup hm h.denied h.asked

theorem Facing.deny (h : Facing names k s) (m : ι) :
    Facing names k (Scene.book.set (s.log ++ [.denied m]) s) where
  locked := h.locked
  members := h.members
  position := h.position
  current := h.current
  of_none := h.of_none
  denied j hj m' hm' := List.mem_append_left _ (h.denied j hj m' hm')
  asked m' hm' := by
    obtain hm' | hm' := List.mem_append.mp hm'
    · exact h.asked m' hm'
    · cases List.mem_singleton.mp hm'
  inOrder hnodup := (h.inOrder hnodup).denied m

/-- Once a member has denied, the chain may turn to the next one. -/
theorem Facing.turn (h : Facing names k s) (hm : names[k]? = some m) (hdenied : .denied m ∈ s.log)
    {following : ι} (hfollowing : names[k + 1]? = some following) :
    Facing names (k + 1) (Scene.own.set
      { s.chain with position := s.chain.position + 1, current := some following } s) where
  locked := h.locked
  members := h.members
  position := congrArg (· + 1) h.position
  current := hfollowing.symm
  of_none hnone := nomatch hfollowing.symm.trans hnone
  denied j hj m' hm' := by
    obtain hj | rfl := Nat.lt_or_eq_of_le (Nat.lt_succ_iff.mp hj)
    · exact h.denied j hj m' hm'
    · obtain rfl := Option.some.inj (hm.symm.trans hm')
      exact hdenied
  asked m' hm' := by
    obtain ⟨j, hj, hget⟩ := h.asked m' hm'
    exact ⟨j, Nat.le_succ_of_le hj, hget⟩
  inOrder := h.inOrder

/-! ## §4. What calls preserve. -/

section

variable {sources : ι → Forward ω α} {note : Nat → ω → ω}

/-- An action on the world changes nothing else. -/
theorem after_outside {x : Act ω β} {P : Scene ι ω → Prop}
    (hP : ∀ s w, P s → P (Scene.outside.set w s)) (h : P s) :
    (x.within Scene.outside).After s fun _ s' => P s' := by
  unfold Act.After Act.within
  cases x (Scene.outside.get s) with
  | value b w => exact hP s w h
  | failure e w => exact hP s w h
  | unfinished => trivial

theorem Facing.after_hasNext (h : Facing names k s) (hm : names[k]? = some m) :
    (aloof sources m).hasNext.After s fun r s' =>
      Facing names k s' ∧ (r = .ok false → .denied m ∈ s'.log) := by
  show (Scene.book.modify _ >>= fun _ => _ : Act _ Bool).After s _
  apply Act.after_modify
  refine (after_outside (fun s w h => h.outside w) (h.ask hm)).bind ?_ (fun e s' h => ⟨h, nofun⟩)
  intro more s' h'
  cases more with
  | true => exact Act.after_pure ⟨h', nofun⟩
  | false =>
      apply Act.after_modify
      exact Act.after_pure ⟨h'.deny m, fun _ => List.mem_append_right _ (List.mem_singleton_self _)⟩

theorem Facing.after_next (h : Facing names k s) (hm : names[k]? = some m) :
    (aloof sources m).next.After s fun _ s' => Facing names k s' := by
  show (Scene.book.modify _ >>= fun _ => _ : Act _ α).After s _
  apply Act.after_modify
  exact after_outside (fun s w h => h.outside w) (h.ask hm)

theorem Facing.after_advance (h : Facing names k s) (steps : Nat) :
    (advance Scene.own (aloof sources) steps).After s fun _ s' => Faces names s' := by
  induction steps generalizing k s with
  | zero => exact Act.after_pure ⟨k, h⟩
  | succ steps ih =>
      unfold advance
      apply Act.after_read
      rw [show (Scene.own.get s).current = names[k]? from h.current]
      cases hm : names[k]? with
      | none => exact Act.after_pure ⟨k, h⟩
      | some m =>
          refine (h.after_hasNext hm).bind ?_ (fun e s' h' => ⟨k, h'.1⟩)
          rintro more s' ⟨h', hdenied⟩
          cases more with
          | true => exact Act.after_pure ⟨k, h'⟩
          | false =>
              apply Act.after_read
              rw [show (Scene.own.get s').members = names from h'.members,
                show (Scene.own.get s').position = k from h'.position]
              cases hfollowing : names[k + 1]? with
              | none => exact Act.after_pure ⟨k, h'⟩
              | some following =>
                  apply Act.after_modify
                  exact ih (h'.turn hm (hdenied rfl) hfollowing)

theorem Facing.after_settle (h : Facing names k s) :
    (settle Scene.own (aloof sources) fun k => Scene.outside.modify (note k)).After s
      fun _ s' => Faces names s' := by
  unfold settle
  apply Act.after_read
  rw [show (Scene.own.get s).locked = true from h.locked]
  simp only [Bool.not_true, Bool.false_eq_true, if_false]
  apply Act.after_read
  rw [show (Scene.own.get s).current = names[k]? from h.current,
    show (Scene.own.get s).members = names from h.members]
  cases hm : names[k]? with
  | some m => exact h.after_advance names.length
  | none =>
      obtain rfl := h.of_none hm
      exact Act.after_pure ⟨k, h⟩

theorem Unused.after_settle (h : Unused s) :
    (settle Scene.own (aloof sources) fun k => Scene.outside.modify (note k)).After s
      fun _ s' => Faces s.chain.members s' := by
  unfold settle
  apply Act.after_read
  rw [show (Scene.own.get s).locked = false from h.locked]
  simp only [Bool.not_false, if_true]
  apply Act.after_modify
  apply Act.after_modify
  generalize hlocked : Scene.own.set _ _ = s₁
  have hcurrent : (Scene.own.get s₁).current = none := by
    rw [← hlocked]
    exact h.current
  have hsame : (Scene.own.get s₁).members = s.chain.members := by
    rw [← hlocked]
    rfl
  apply Act.after_read
  rw [hcurrent, hsame]
  cases hmembers : s.chain.members with
  | nil =>
      rw [← hlocked]
      exact Act.after_pure ⟨0, h.facing_nil hmembers _⟩
  | cons first rest =>
      rw [← hlocked]
      apply Act.after_modify
      exact (h.facing_first hmembers _).after_advance _

/-- The chain was not used yet, or it stands at one of its members. -/
def Ready (s : Scene ι ω) : Prop := Unused s ∨ Faces s.chain.members s

theorem Faces.members_eq (h : Faces names s) : s.chain.members = names := by
  obtain ⟨k, h⟩ := h
  exact h.members

theorem Faces.ready (h : Faces names s) : Ready s := by
  have hmembers := h.members_eq
  subst hmembers
  exact .inr h

theorem Ready.after_settle (h : Ready s) :
    (settle Scene.own (aloof sources) fun k => Scene.outside.modify (note k)).After s
      fun _ s' => Faces s.chain.members s' := by
  obtain h | ⟨k, h⟩ := h
  · exact h.after_settle
  · exact h.after_settle

/-- A question or a step leaves the chain at one of its members, whatever it comes to. -/
theorem Ready.after_query (h : Ready s) {query : Pull} (hquery : query ≠ .remove) :
    ((Use.pull query).ask (aloof sources) note).After s fun _ s' => Faces s.chain.members s' := by
  cases query with
  | hasNext =>
      refine Act.After.bind (P := fun _ s' => Faces s.chain.members s') ?_
        (fun _ _ h => Act.after_pure h) (fun _ _ h => h)
      refine h.after_settle.bind ?_ (fun _ _ h => h)
      rintro - s' ⟨k, h'⟩
      apply Act.after_read
      rw [show (Scene.own.get s').current = _ from h'.current]
      cases hm : s.chain.members[k]? with
      | none => exact Act.after_pure ⟨k, h'⟩
      | some m => exact (h'.after_hasNext hm).mono fun _ _ h => ⟨k, h.1⟩
  | next =>
      refine Act.After.bind (P := fun _ s' => Faces s.chain.members s') ?_
        (fun _ _ h => Act.after_pure h) (fun _ _ h => h)
      refine h.after_settle.bind ?_ (fun _ _ h => h)
      rintro - s' ⟨k, h'⟩
      apply Act.after_read
      rw [show (Scene.own.get s').current = _ from h'.current]
      cases hm : s.chain.members[k]? with
      | none => exact Act.after_fail ⟨k, h'⟩
      | some m =>
          refine (h'.after_next hm).bind ?_ (fun _ _ h => ⟨k, h⟩)
          intro x s'' h''
          apply Act.after_modify
          exact Act.after_pure ⟨k, h''.lastUsed _⟩
  | remove => exact absurd rfl hquery

/-- A removal does not show in what the chain has asked. -/
theorem after_remove {P : Scene ι ω → Prop}
    (houtside : ∀ s w, P s → P (Scene.outside.set w s))
    (hlastUsed : ∀ s m, P s → P (Scene.own.set { s.chain with lastUsed := m } s)) (h : P s) :
    ((Use.pull .remove).ask (aloof sources) note).After s fun _ s' => P s' := by
  refine Act.After.bind (P := fun _ s' => P s') ?_ (fun _ _ h => Act.after_pure h)
    (fun _ _ h => h)
  show (Chain.remove Scene.own (aloof sources)).After s _
  unfold Chain.remove
  apply Act.after_read
  cases (Scene.own.get s).lastUsed with
  | none => exact Act.after_fail h
  | some m =>
      refine (after_outside houtside h).bind ?_ (fun _ _ h => h)
      intro _ s' h'
      exact Act.after_of_value rfl (hlastUsed s' none h')

/-- Once the chain was used nothing can be added. -/
theorem Faces.add_apply (h : Faces names s) (more : Act ω (List ι)) :
    (Use.add more).ask (aloof sources) note s = .failure .chainInUse s := by
  obtain ⟨k, h⟩ := h
  have hlocked : (Scene.own.get s).locked = true := h.locked
  simp only [Use.ask, extend, Act.bind_apply, Field.read_apply, hlocked, if_true, Act.fail_apply]

theorem Unused.after_add (h : Unused s) (more : Act ω (List ι)) :
    ((Use.add more).ask (aloof sources) note).After s fun _ s' => Unused s' := by
  refine Act.After.bind (P := fun _ s' => Unused s') ?_ (fun _ _ h => Act.after_pure h)
    (fun _ _ h => h)
  unfold extend
  apply Act.after_read
  rw [show (Scene.own.get s).locked = false from h.locked]
  simp only [Bool.false_eq_true, if_false]
  refine (after_outside (P := Unused) ?_ h).bind ?_ (fun _ _ h => h)
  · exact fun s w h => ⟨h.locked, h.current, h.position, h.log⟩
  · intro added s' h'
    exact Act.after_of_value rfl ⟨h'.locked, h'.current, h'.position, h'.log⟩

/-- A chain that stands at one of its members does so after each call. -/
theorem Faces.after_use (h : Faces names s) (use : Use ι ω) :
    (use.ask (aloof sources) note).After s fun _ s' => Faces names s' := by
  have hmembers := h.members_eq
  cases use with
  | add more => exact Act.after_of_failure (h.add_apply more) h
  | pull call =>
      by_cases hcall : call = .remove
      · subst hcall
        refine after_remove ?_ ?_ h
        · rintro s w ⟨k, h⟩
          exact ⟨k, h.outside w⟩
        · rintro s m ⟨k, h⟩
          exact ⟨k, h.lastUsed m⟩
      · refine (h.ready.after_query hcall).mono fun _ _ h' => ?_
        rwa [hmembers] at h'

theorem Ready.after_use (h : Ready s) (use : Use ι ω) :
    (use.ask (aloof sources) note).After s fun _ s' => Ready s' := by
  obtain h | h := h
  · cases use with
    | add more => exact (h.after_add more).mono fun _ _ h => .inl h
    | pull call =>
        by_cases hcall : call = .remove
        · subst hcall
          refine (after_remove (P := Unused) ?_ ?_ h).mono fun _ _ h => .inl h
          · exact fun s w h => ⟨h.locked, h.current, h.position, h.log⟩
          · exact fun s m h => ⟨h.locked, h.current, h.position, h.log⟩
        · exact (Ready.after_query (.inl h) hcall).mono fun _ _ h => h.ready
  · exact (h.after_use use).mono fun _ _ h => h.ready

theorem ready_start (world : ω) : Ready ({ world := world } : Scene ι ω) :=
  .inl ⟨rfl, rfl, rfl, rfl⟩

/-! ## §5. Every run. -/

/-- **Whatever the members of a chain answer and however they fail, as long as they do not use the
chain themselves, a member is asked only once all before it have denied that they have more, and
not again once one behind it was asked.  From the first question or step on, whether that fails or
not, the members stay what they are: nothing can be added, and trying to changes nothing.** -/
theorem asks_left_to_right (sources : ι → Forward ω α) (note : Nat → ω → ω) (world : ω)
    (before : List (Use ι ω)) {query : Pull} (hquery : query ≠ .remove) (after : List (Use ι ω))
    {s s' : Scene ι ω}
    (hs : visited (Use.ask (aloof sources) note) before { world := world } = some s)
    (hs' : visited (Use.ask (aloof sources) note) (before ++ .pull query :: after)
      { world := world } = some s')
    (hnodup : s.chain.members.Nodup) :
    InOrder s.chain.members s'.log ∧ s'.chain.members = s.chain.members
      ∧ ∀ more, (Use.add more).ask (aloof sources) note s' = .failure .chainInUse s' := by
  have hready : Ready s :=
    visited_of_step (fun use s h => Ready.after_use h use) (ready_start world) hs
  have hfaces : Faces s.chain.members s' := by
    rw [visited_append, hs, Option.bind_some] at hs'
    obtain ⟨s₁, h₁, hs₁⟩ := visited_cons (hready.after_query hquery) hs'
    exact visited_of_step (fun use s h => Faces.after_use h use) h₁ hs₁
  obtain ⟨k, hfacing⟩ := hfaces
  exact ⟨hfacing.inOrder hnodup, hfacing.members, fun more => Faces.add_apply ⟨k, hfacing⟩ more⟩

end

/-- Two members, of which the first fails when it is asked for the first time. -/
def stumbling (m : Fin 2) : Forward Nat Nat where
  hasNext w :=
    if w == 0 then .failure (.raised "ValueError" none) 1 else .value (m.val == 1) (w + 1)
  next w := .value w (w + 1)
  remove := Act.fail (.unsupported "Source" .remove)

/-- The first question fails, and is asked again in the next step. -/
theorem stumbling_asked_left_to_right :
    ∃ s s', visited (Use.ask (aloof stumbling) fun _ w => w) [.add (pure [0, 1])] { world := 0 }
          = some s
      ∧ visited (Use.ask (aloof stumbling) fun _ w => w)
          [.add (pure [0, 1]), .pull .hasNext, .pull .next] { world := 0 } = some s'
      ∧ s'.log = [.asked 0, .asked 0, .denied 0, .asked 1, .asked 1]
      ∧ InOrder s.chain.members s'.log :=
  ⟨_, _, rfl, rfl, rfl, (asks_left_to_right stumbling (fun _ w => w) 0 [.add (pure [0, 1])]
    (by decide : Pull.hasNext ≠ .remove) [.pull .next] rfl rfl (by decide)).1⟩

/-! ## §6. A member that uses the chain. -/

/-- Three members and their world: whether the first has looked at its only element, which it
rejects.  It asks the chain while it looks; the others always have more. -/
def meddler : Nat → Fin 3 → Forward (Scene (Fin 3) Bool) Nat
  | 0, _ => ⟨Act.unfinished, Act.unfinished, Act.unfinished⟩
  | depth + 1, 0 => {
      hasNext := do
        if (← Scene.outside.read) then return false
        Scene.outside.write true
        let _ ← Chain.hasNext Scene.own (fun m => heard m (meddler depth m)) fun _ => pure ()
        return false
      next := Act.fail .ended
      remove := Act.fail (.notMoved .remove false) }
  | _ + 1, m => {
      hasNext := pure true
      next := pure m
      remove := Act.fail (.unsupported "Counter" .remove) }

/-- The chain turns to its third member although the second one has said that it has more. -/
theorem meddler_out_of_order :
    ∃ s, visited (Use.ask (fun m => heard m (meddler 2 m)) fun _ w => w)
          [.add (pure [0, 1, 2]), .pull .hasNext] { world := false } = some s
      ∧ s.chain.members.Nodup
      ∧ s.log = [.asked 0, .asked 0, .denied 0, .asked 1, .asked 1, .denied 0, .asked 2, .asked 2]
      ∧ ¬ InOrder s.chain.members s.log := by
  refine ⟨_, rfl, by decide, rfl, fun h => ?_⟩
  obtain ⟨hdenied, -⟩ := h [.asked 0, .asked 0, .denied 0, .asked 1, .asked 1, .denied 0] 2
    [.asked 2] rfl 1 ⟨1, 2, by decide, rfl, rfl⟩
  revert hdenied
  decide

end Chain

end Cursors
