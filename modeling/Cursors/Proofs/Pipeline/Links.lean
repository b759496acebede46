/-
  Cursors.Proofs.Pipeline.Links
  ─────────────────────────────
  **WHAT EACH COMBINATOR GIVES.**

  Every combinator over sources that give lists gives a list itself, in any
  state that it can be in, however much it or its sources hold ahead:

      filter      the matches
      transform   the images
      chain       one list after the other
      merge       the least heads, one by one (`collate`)
      buffer      what is in front of its gap

  Each `Rest` below says what is left to give in terms of the state of the
  combinator and of what its sources have left.
-/
import Cursors.Combinator.Chain
import Cursors.Combinator.Filter
import Cursors.Combinator.Transform
import Cursors.Proofs.Buffer.Mirror
import Cursors.Proofs.Merge.Stable

namespace Cursors

variable {σ ι α β : Type}

/-! ## §1. Filters. -/

namespace Filter

/-- What is left of a filter over `xs`; the fuel suffices to get through these. -/
def Rest (fuel : Nat) (p : α → Bool) (t : Filter α) (xs ys : List α) : Prop :=
  xs.length < fuel ∧ t.ahead.toList ++ xs.filter p = ys

variable {host : Host σ (Filter α) α} {accepts : α → Act σ Bool} {p : α → Bool} {s : σ}
  {t : Filter α} {xs : List α} {fuel bound : Nat}

/-- A search goes on to the first match, and takes nothing from the matches behind it. -/
theorem search_apply (haccepts : ∀ x s, accepts x s = .value (p x) s) (h : host.Holds s t xs)
    (hfuel : xs.length < fuel) (hbound : xs.length < bound) :
    ∃ s' xs', search host.source.hasNext host.source.next accepts fuel s
        = .value (xs.filter p).head? s'
      ∧ host.Holds s' t xs' ∧ xs'.length < bound ∧ xs'.filter p = (xs.filter p).tail := by
  -- Each round takes an element, and the fuel is more than there are; `bound` stays the same.
  induction fuel generalizing s xs with
  | zero => exact absurd hfuel (Nat.not_lt_zero _)
  | succ fuel ih =>
      obtain ⟨s₁, hask, h₁⟩ := (host.gives t).hasNext_apply h
      cases xs with
      | nil =>
          refine ⟨s₁, [], ?_, h₁, hbound, rfl⟩
          simp only [search, Act.bind_apply, hask]
          rfl
      | cons x xs =>
          rw [List.length_cons] at hfuel hbound
          obtain ⟨s₂, hnext, h₂⟩ := (host.gives t).next_of_cons h₁
          by_cases hx : p x = true
          · refine ⟨s₂, xs, ?_, h₂, by omega, by rw [List.filter_cons_of_pos hx]; rfl⟩
            simp only [search, Act.bind_apply, hask, List.isEmpty_cons, Bool.not_false, if_true,
              hnext, haccepts, hx, List.filter_cons_of_pos hx]
            rfl
          · obtain ⟨s₃, xs', hsearch, h₃, hlen, hfilter⟩ := ih h₂ (by omega) (by omega)
            rw [List.filter_cons_of_neg hx]
            refine ⟨s₃, xs', ?_, h₃, hlen, hfilter⟩
            simp only [search, Act.bind_apply, hask, List.isEmpty_cons, Bool.not_false, if_true,
              hnext, haccepts, hx]
            exact hsearch

theorem gives (host : Host σ (Filter α) α) (fuel : Nat)
    (haccepts : ∀ x s, accepts x s = .value (p x) s) :
    Gives (forward fuel host.self host.source accepts) (host.Has (Rest fuel p)) where
  hasNext_apply := by
    rintro s ys ⟨t, xs, h, hlen, rfl⟩
    have hget := host.self_get h
    cases hahead : t.ahead with
    | some x =>
        refine ⟨s, ?_, t, xs, h, hlen, by rw [hahead]⟩
        show hasNext fuel host.self host.source accepts s = _
        simp only [hasNext, Act.bind_apply, Field.read_apply, hget, hahead]
        rfl
    | none =>
        obtain ⟨s₁, xs', hsearch, h₁, hlen', hfilter⟩ := search_apply haccepts h hlen hlen
        rw [Option.toList_none, List.nil_append]
        cases hxs : xs.filter p with
        | nil =>
            rw [hxs] at hsearch hfilter
            refine ⟨s₁, ?_, t, xs', h₁, hlen', by rw [hahead, hfilter]; rfl⟩
            show hasNext fuel host.self host.source accepts s = _
            simp only [hasNext, Act.bind_apply, Field.read_apply, hget, hahead,
              Option.isSome_none, Bool.false_eq_true, if_false, hsearch]
            rfl
        | cons y ys =>
            rw [hxs] at hsearch hfilter
            refine ⟨_, ?_, { ahead := some y }, xs', host.self_set h₁ _, hlen',
              by rw [hfilter]; rfl⟩
            show hasNext fuel host.self host.source accepts s = _
            simp only [hasNext, Act.bind_apply, Field.read_apply, hget, hahead,
              Option.isSome_none, Bool.false_eq_true, if_false, hsearch]
            rfl
  next_of_cons := by
    rintro s y ys ⟨t, xs, h, hlen, hys⟩
    have hget := host.self_get h
    cases hahead : t.ahead with
    | some x =>
        rw [hahead] at hys
        obtain ⟨rfl, rfl⟩ := List.cons.inj hys
        refine ⟨_, ?_, {}, xs, host.self_set h _, hlen, rfl⟩
        show next fuel host.self host.source accepts s = _
        simp only [next, Act.bind_apply, Field.read_apply, hget, hahead]
        rfl
    | none =>
        rw [hahead, Option.toList_none, List.nil_append] at hys
        obtain ⟨s₁, xs', hsearch, h₁, hlen', hfilter⟩ := search_apply haccepts h hlen hlen
        rw [hys] at hsearch hfilter
        refine ⟨_, ?_, {}, xs', host.self_set h₁ _, hlen', hfilter⟩
        show next fuel host.self host.source accepts s = _
        simp only [next, Act.bind_apply, Field.read_apply, hget, hahead, hsearch]
        rfl
  next_of_nil := by
    rintro s ⟨t, xs, h, hlen, hys⟩
    have hget := host.self_get h
    obtain ⟨hnone, hxs⟩ := List.append_eq_nil_iff.mp hys
    have hahead : t.ahead = none := Option.toList_eq_nil_iff.mp hnone
    obtain ⟨s₁, xs', hsearch, h₁, hlen', hfilter⟩ := search_apply haccepts h hlen hlen
    rw [hxs] at hsearch hfilter
    refine ⟨s₁, ?_, t, xs', h₁, hlen', by rw [hahead, hfilter]; rfl⟩
    show next fuel host.self host.source accepts s = _
    simp only [next, Act.bind_apply, Field.read_apply, hget, hahead, hsearch]
    rfl

end Filter

/-! ## §2. Transformations. -/

/-- The images under a function are given one by one. -/
theorem Gives.transform {source : Forward σ α} {Has : σ → List α → Prop} (h : Gives source Has)
    {f : α → Act σ β} {g : α → β} (hf : ∀ x s, f x s = .value (g x) s) :
    Gives (source.transform f) fun s ys => ∃ xs, Has s xs ∧ xs.map g = ys where
  hasNext_apply := by
    rintro s _ ⟨xs, hs, rfl⟩
    obtain ⟨s', hask, h'⟩ := h.hasNext_apply hs
    rw [List.isEmpty_map]
    exact ⟨s', hask, xs, h', rfl⟩
  next_of_cons := by
    rintro s y ys ⟨xs, hs, hys⟩
    obtain ⟨x, xs', rfl, rfl, rfl⟩ := List.map_eq_cons_iff.mp hys
    obtain ⟨s', hnext, h'⟩ := h.next_of_cons hs
    refine ⟨s', ?_, xs', h', rfl⟩
    simp only [Forward.transform, Act.bind_apply, hnext, hf]
  next_of_nil := by
    rintro s ⟨xs, hs, hys⟩
    obtain rfl : xs = [] := List.map_eq_nil_iff.mp hys
    obtain ⟨s', hnext, h'⟩ := h.next_of_nil hs
    refine ⟨s', ?_, [], h', rfl⟩
    simp only [Forward.transform, Act.bind_apply, hnext]

/-! ## §3. Chains. -/

namespace Chain

/-- The chain has turned to `m`, and all members before it are exhausted. -/
structure At (t : Chain ι) (left : ι → List α) (pre : List ι) (m : ι) (post : List ι) : Prop where
  members_eq : t.members = pre ++ m :: post
  position_eq : t.position = pre.length
  current_eq : t.current = some m
  exhausted : ∀ i ∈ pre, left i = []

/-- Where a chain stands: it was not used yet, or it has turned to one of its members. -/
inductive Stands (t : Chain ι) (left : ι → List α) : Prop where
  | new (hcurrent : t.current = none) (hposition : t.position = 0)
  | turned {pre : List ι} {m : ι} {post : List ι} (h : t.At left pre m post)

/-- Where a chain stands once it has settled: it has no members, or it has turned to one that is not
exhausted or the last one. -/
inductive Settled (t : Chain ι) (left : ι → List α) : Prop where
  | bare (hmembers : t.members = []) (hcurrent : t.current = none) (hposition : t.position = 0)
  | turned {pre : List ι} {m : ι} {post : List ι} (h : t.At left pre m post)
      (hlast : left m = [] → post = [])

theorem Settled.stands {t : Chain ι} {left : ι → List α} (h : t.Settled left) : t.Stands left := by
  cases h with
  | bare _ hcurrent hposition => exact .new hcurrent hposition
  | turned h _ => exact .turned h

/-- What is left of a chain is what is left from the present member on. -/
theorem At.flatMap_eq {t : Chain ι} {left : ι → List α} {pre post : List ι} {m : ι}
    (h : t.At left pre m post) : t.members.flatMap left = left m ++ post.flatMap left := by
  rw [h.members_eq, List.flatMap_append, List.flatMap_eq_nil_iff.mpr h.exhausted,
    List.nil_append, List.flatMap_cons]

variable [DecidableEq ι]

/-- What is left of a chain. -/
def Rest (t : Chain ι) (left : ι → List α) (ys : List α) : Prop :=
  t.members.Nodup ∧ t.Stands left ∧ t.members.flatMap left = ys

variable {g : Group σ (Chain ι) ι α} {s : σ} {t : Chain ι} {left : ι → List α} {pre post : List ι}
  {m : ι} {note : Nat → Act σ Unit}

/-- The chain turns to the next member that is not exhausted, or to the last one. -/
theorem advance_apply (h : g.Holds s t left) (hat : t.At left pre m post) {steps : Nat}
    (hsteps : post.length < steps) :
    ∃ s' t' pre' m' post', advance g.self g.source steps s = .value () s' ∧ g.Holds s' t' left
      ∧ t'.members = t.members ∧ t'.At left pre' m' post' ∧ (left m' = [] → post' = []) := by
  -- The induction is on the members behind the present one.
  induction post generalizing s t pre m steps with
  | nil =>
      obtain ⟨steps, rfl⟩ := Nat.exists_eq_succ_of_ne_zero (Nat.ne_zero_of_lt hsteps)
      obtain ⟨s₁, hask, h₁⟩ := (g.gives t left m).hasNext_at h
      have hlast : t.members[t.position + 1]? = none := by
        rw [hat.members_eq, hat.position_eq, List.getElem?_eq_none]
        simp
      refine ⟨s₁, t, pre, m, [], ?_, h₁, rfl, hat, fun _ => rfl⟩
      simp only [advance, Act.bind_apply, Field.read_apply, g.self_get h, hat.current_eq, hask]
      cases left m with
      | cons x xs => rfl
      | nil =>
          simp only [List.isEmpty_nil, Bool.not_true, Bool.false_eq_true, if_false,
            Act.bind_apply, Field.read_apply, g.self_get h₁, hlast]
          rfl
  | cons m₁ post ih =>
      obtain ⟨steps, rfl⟩ := Nat.exists_eq_succ_of_ne_zero (Nat.ne_zero_of_lt hsteps)
      obtain ⟨s₁, hask, h₁⟩ := (g.gives t left m).hasNext_at h
      cases hleft : left m with
      | cons x xs =>
          refine ⟨s₁, t, pre, m, m₁ :: post, ?_, h₁, rfl, hat, fun hnil => ?_⟩
          · simp only [advance, Act.bind_apply, Field.read_apply, g.self_get h, hat.current_eq,
              hask, hleft]
            rfl
          · rw [hleft] at hnil
            exact absurd hnil (List.cons_ne_nil x xs)
      | nil =>
          have hnext : t.members[t.position + 1]? = some m₁ := by
            rw [hat.members_eq, hat.position_eq]
            simp
          have hat₁ : At { t with position := t.position + 1, current := some m₁ } left
              (pre ++ [m]) m₁ post := by
            refine ⟨?_, ?_, rfl, ?_⟩
            · rw [List.append_assoc]
              exact hat.members_eq
            · rw [List.length_append, List.length_singleton, hat.position_eq]
            · intro i hi
              rcases List.mem_append.mp hi with hi | hi
              · exact hat.exhausted i hi
              · rw [List.mem_singleton.mp hi]
                exact hleft
          rw [List.length_cons] at hsteps
          obtain ⟨s', t', pre', m', post', hadvance, h', hmembers, hat', hlast⟩ :=
            ih (g.self_set h₁ _) hat₁ (Nat.lt_of_succ_lt_succ hsteps)
          refine ⟨s', t', pre', m', post', ?_, h', hmembers, hat', hlast⟩
          simp only [advance, Act.bind_apply, Field.read_apply, g.self_get h, hat.current_eq, hask,
            hleft, List.isEmpty_nil, Bool.not_true, Bool.false_eq_true, if_false, g.self_get h₁,
            hnext, Field.modify_apply]
          exact hadvance

/-- What a chain that was closed does to settle, where it stands as `here` says. -/
def turn (self : Field σ (Chain ι)) (member : ι → Forward σ α) (here : Chain ι) : Act σ Unit :=
  match here.current, here.members with
  | none, [] => pure ()
  | none, first :: _ => do
      self.modify ({ · with current := some first })
      advance self member here.members.length
  | some _, members => advance self member members.length

/-- A chain is closed on its first use. -/
theorem settle_eq_turn (hnote : ∀ n s, note n s = .value () s) (h : g.Holds s t left) :
    ∃ s' t', settle g.self g.source note s = turn g.self g.source t' s' ∧ g.Holds s' t' left
      ∧ t'.members = t.members ∧ t'.position = t.position ∧ t'.current = t.current := by
  cases hlocked : t.locked with
  | true =>
      refine ⟨s, t, ?_, h, rfl, rfl, rfl⟩
      simp only [settle, Act.bind_apply, Field.read_apply, g.self_get h, hlocked, Bool.not_true,
        Bool.false_eq_true, if_false]
      rfl
  | false =>
      have h' := g.self_set h { t with locked := true }
      refine ⟨_, _, ?_, h', rfl, rfl, rfl⟩
      simp only [settle, Act.bind_apply, Field.read_apply, g.self_get h, hlocked, Bool.not_false,
        if_true, hnote, Field.modify_apply, g.self_get h']
      rfl

/-- A chain settles on a member that is not exhausted or the last one, if it has any. -/
theorem settle_apply (hnote : ∀ n s, note n s = .value () s) (h : g.Holds s t left)
    (hstands : t.Stands left) :
    ∃ s' t', settle g.self g.source note s = .value () s' ∧ g.Holds s' t' left
      ∧ t'.members = t.members ∧ t'.Settled left := by
  obtain ⟨s₁, t₁, hsettle, h₁, hmembers, hposition, hcurrent⟩ := settle_eq_turn hnote h
  rw [hsettle, ← hmembers]
  cases hstands with
  | new hcurrent₀ hposition₀ =>
      rw [hcurrent₀] at hcurrent
      rw [hposition₀] at hposition
      cases hlist : t₁.members with
      | nil =>
          refine ⟨s₁, t₁, ?_, h₁, hlist, .bare hlist hcurrent hposition⟩
          simp only [turn, hcurrent, hlist, Act.pure_apply]
      | cons first rest =>
          have h₂ := g.self_set h₁ { t₁ with current := some first }
          have hat : At { t₁ with current := some first } left [] first rest :=
            ⟨hlist, hposition, rfl, by simp⟩
          obtain ⟨s', t', pre', m', post', hadvance, h', hmembers', hat', hlast⟩ :=
            advance_apply h₂ hat (Nat.lt_succ_self rest.length)
          refine ⟨s', t', ?_, h', hmembers'.trans hlist, .turned hat' hlast⟩
          simp only [turn, hcurrent, hlist, Act.bind_apply, Field.modify_apply, g.self_get h₁]
          rw [hlist] at hadvance
          exact hadvance
  | @turned pre m post hat =>
      have hat₁ : t₁.At left pre m post :=
        ⟨hmembers.trans hat.members_eq, hposition.trans hat.position_eq,
          hcurrent.trans hat.current_eq, hat.exhausted⟩
      have hsteps : post.length < t₁.members.length := by
        rw [hat₁.members_eq, List.length_append, List.length_cons]
        omega
      obtain ⟨s', t', pre', m', post', hadvance, h', hmembers', hat', hlast⟩ :=
        advance_apply h₁ hat₁ hsteps
      refine ⟨s', t', ?_, h', hmembers', .turned hat' hlast⟩
      simp only [turn, hat₁.current_eq]
      exact hadvance

section

variable {s₁ : σ} (hsettle : settle g.self g.source note s = .value () s₁)
  (h : g.Holds s₁ t left)

include hsettle h

/-- The present member can tell for the whole chain whether there is more. -/
theorem hasNext_of_settled (ht : t.Settled left) :
    ∃ s', hasNext g.self g.source note s = .value (!(t.members.flatMap left).isEmpty) s'
      ∧ g.Holds s' t left := by
  cases ht with
  | bare hmembers hcurrent _ =>
      refine ⟨s₁, ?_, h⟩
      simp only [hasNext, Act.bind_apply, hsettle, Field.read_apply, g.self_get h, hcurrent]
      rw [hmembers]
      rfl
  | @turned pre m post hat hlast =>
      obtain ⟨s', hask, h'⟩ := (g.gives t left m).hasNext_at h
      refine ⟨s', ?_, h'⟩
      simp only [hasNext, Act.bind_apply, hsettle, Field.read_apply, g.self_get h,
        hat.current_eq, hask]
      rw [hat.flatMap_eq]
      cases hm : left m with
      | cons x xs => rfl
      | nil =>
          rw [hlast hm]
          rfl

/-- The head of what is left comes from the present member. -/
theorem next_of_settled_cons (ht : t.Settled left) (hnodup : t.members.Nodup) {y : α}
    {ys : List α} (hys : t.members.flatMap left = y :: ys) :
    ∃ s', next g.self g.source note s = .value y s' ∧ g.Has Rest s' ys := by
  cases ht with
  | bare hmembers _ _ =>
      rw [hmembers] at hys
      exact absurd hys.symm (List.cons_ne_nil y ys)
  | @turned pre m post hat hlast =>
      rw [hat.flatMap_eq] at hys
      obtain ⟨xs, hm, rfl⟩ : ∃ xs, left m = y :: xs ∧ xs ++ post.flatMap left = ys := by
        cases hm : left m with
        | nil =>
            rw [hm, hlast hm] at hys
            exact absurd hys.symm (List.cons_ne_nil y ys)
        | cons x xs =>
            rw [hm] at hys
            obtain ⟨rfl, htail⟩ := List.cons.inj hys
            exact ⟨xs, rfl, htail⟩
      obtain ⟨s₂, hnext, h₂⟩ := (g.gives t left m).next_at_cons h hm
      -- The step shows in this member only: no other member of the chain has its name.
      obtain ⟨-, hpost, hpre⟩ := List.nodup_append.mp (hat.members_eq ▸ hnodup)
      have hat' : At { t with lastUsed := t.current } (Function.update left m xs) pre m post := by
        refine ⟨hat.members_eq, hat.position_eq, hat.current_eq, fun i hi => ?_⟩
        rw [Function.update_of_ne (hpre i hi m List.mem_cons_self)]
        exact hat.exhausted i hi
      refine ⟨_, ?_, _, _, g.self_set h₂ { t with lastUsed := t.current }, hnodup, .turned hat', ?_⟩
      · simp only [next, Act.bind_apply, hsettle, Field.read_apply, g.self_get h, hat.current_eq,
          hnext, Field.modify_apply, g.self_get h₂]
        rfl
      · rw [hat'.flatMap_eq, Function.update_self, List.flatMap_def, List.flatMap_def,
          map_update (List.nodup_cons.mp hpost).1]

theorem next_of_settled_nil (ht : t.Settled left) (hnil : t.members.flatMap left = []) :
    ∃ s', next g.self g.source note s = .failure .ended s' ∧ g.Holds s' t left := by
  cases ht with
  | bare _ hcurrent _ =>
      refine ⟨s₁, ?_, h⟩
      simp only [next, Act.bind_apply, hsettle, Field.read_apply, g.self_get h, hcurrent,
        Act.fail_apply]
  | @turned pre m post hat _ =>
      rw [hat.flatMap_eq] at hnil
      obtain ⟨s', hnext, h'⟩ :=
        (g.gives t left m).next_at_nil h (List.append_eq_nil_iff.mp hnil).1
      refine ⟨s', ?_, h'⟩
      simp only [next, Act.bind_apply, hsettle, Field.read_apply, g.self_get h, hat.current_eq,
        hnext]

end

theorem gives (g : Group σ (Chain ι) ι α) (hnote : ∀ n s, note n s = .value () s) :
    Gives (forward g.self g.source note) (g.Has Rest) where
  hasNext_apply := by
    rintro s ys ⟨t, left, h, hnodup, hstands, rfl⟩
    obtain ⟨s₁, t₁, hsettle, h₁, hmembers, ht⟩ := settle_apply hnote h hstands
    obtain ⟨s', hask, h'⟩ := hasNext_of_settled hsettle h₁ ht
    rw [hmembers] at hask
    exact ⟨s', hask, t₁, left, h', hmembers ▸ hnodup, ht.stands, by rw [hmembers]⟩
  next_of_cons := by
    rintro s y ys ⟨t, left, h, hnodup, hstands, hys⟩
    obtain ⟨s₁, t₁, hsettle, h₁, hmembers, ht⟩ := settle_apply hnote h hstands
    rw [← hmembers] at hnodup hys
    exact next_of_settled_cons hsettle h₁ ht hnodup hys
  next_of_nil := by
    rintro s ⟨t, left, h, hnodup, hstands, hys⟩
    obtain ⟨s₁, t₁, hsettle, h₁, hmembers, ht⟩ := settle_apply hnote h hstands
    rw [← hmembers] at hnodup hys
    obtain ⟨s', hnext, h'⟩ := next_of_settled_nil hsettle h₁ ht hys
    exact ⟨s', hnext, t₁, left, h', hnodup, ht.stands, hys⟩

end Chain

/-! ## §4. Merges. -/

namespace Merge

/-- Take the head that is picked among the rows off its row, at most `n` times. -/
def collateUpTo (lt : α → α → Bool) : Nat → List (List α) → List α
  | 0, _ => []
  | n + 1, rows =>
      match pick lt rows 0 none with
      | none => []
      | some (i, x) => x :: collateUpTo lt n (rows.set i ((rows[i]?.getD []).drop 1))

/-- All elements of the rows, the head that is picked among the rows always next. -/
def collate (lt : α → α → Bool) (rows : List (List α)) : List α :=
  collateUpTo lt rows.flatten.length rows

variable {lt : α → α → Bool} {rows : List (List α)}

theorem collateUpTo_of_pick_none (hpick : pick lt rows 0 none = none) (n : Nat) :
    collateUpTo lt n rows = [] := by
  cases n with
  | zero => rfl
  | succ n => simp only [collateUpTo, hpick]

theorem collate_of_pick {i : Nat} {x : α} {rest : List α}
    (hpick : pick lt rows 0 none = some (i, x)) (hrow : rows[i]? = some (x :: rest)) :
    collate lt rows = x :: collate lt (rows.set i rest) := by
  have hlen := (perm_flatten_set hrow).length_eq
  rw [List.length_cons] at hlen
  unfold collate
  rw [hlen]
  simp only [collateUpTo, hpick, hrow]
  rfl

/-- As long as a row is not empty, there is something to collate. -/
theorem any_eq_collate (lt : α → α → Bool) (rows : List (List α)) :
    (rows.any fun row => !row.isEmpty) = !(collate lt rows).isEmpty := by
  match hpick : pick lt rows 0 none with
  | none =>
      unfold collate
      rw [collateUpTo_of_pick_none hpick, List.isEmpty_nil, Bool.not_true, List.any_eq_false]
      intro row hrow
      rw [(pick_eq_none hpick).2 row hrow]
      exact Bool.false_ne_true
  | some (i, x) =>
      obtain ⟨rest, hrow⟩ := row_of_pick hpick
      rw [collate_of_pick hpick hrow, List.isEmpty_cons, Bool.not_false, List.any_eq_true]
      exact ⟨_, List.mem_of_getElem? hrow, rfl⟩

theorem length_collate_le (lt : α → α → Bool) (rows : List (List α)) :
    (collate lt rows).length ≤ rows.flatten.length := by
  have hupto : ∀ n (rows : List (List α)), (collateUpTo lt n rows).length ≤ n := by
    intro n
    induction n with
    | zero => exact fun rows => Nat.le_refl 0
    | succ n ih =>
        intro rows
        unfold collateUpTo
        split
        · exact Nat.zero_le _
        · rw [List.length_cons]
          exact Nat.succ_le_succ (ih _)
  exact hupto _ rows

/-- The first `n` sources of a group, as sources of a merge. -/
def children (g : Group σ (Merge α) Nat α) (n : Nat) : Children σ α where
  self := g.self
  sources := (List.range n).map g.source
  Holds s m xss := ∃ left, g.Holds s m left ∧ xss = (List.range n).map left
  self_get := by
    rintro s m xss ⟨left, h, -⟩
    exact g.self_get h
  self_set := by
    rintro s m xss ⟨left, h, hxss⟩ m'
    exact ⟨left, g.self_set h m', hxss⟩
  length_eq := by
    rintro s m xss ⟨left, -, rfl⟩
    simp
  hasNext_apply := by
    rintro s m xss i source xs ⟨left, h, rfl⟩ hsource hxs
    rw [List.getElem?_map] at hsource hxs
    obtain ⟨j, hj, rfl⟩ := Option.map_eq_some_iff.mp hsource
    rw [hj, Option.map_some, Option.some.injEq] at hxs
    subst hxs
    obtain ⟨s', hask, h'⟩ := (g.gives m left j).hasNext_at h
    exact ⟨s', hask, left, h', rfl⟩
  next_apply := by
    rintro s m xss i source x xs ⟨left, h, rfl⟩ hsource hxs
    rw [List.getElem?_map] at hsource hxs
    obtain ⟨j, hj, rfl⟩ := Option.map_eq_some_iff.mp hsource
    rw [hj, Option.map_some, Option.some.injEq] at hxs
    obtain ⟨s', hnext, h'⟩ := (g.gives m left j).next_at_cons h hxs
    obtain ⟨hi, hij⟩ := List.getElem?_eq_some_iff.mp hj
    rw [List.getElem_range] at hij
    subst hij
    refine ⟨s', hnext, _, h', ?_⟩
    apply List.ext_getElem
    · simp
    · intro k hk hk'
      rw [List.getElem_set, List.getElem_map, List.getElem_map, List.getElem_range,
        Function.update_apply]
      exact if_congr eq_comm rfl rfl

/-- What is left of a merge of the first `n` sources. -/
def Rest (n : Nat) (lt : α → α → Bool) (m : Merge α) (left : Nat → List α) (ys : List α) : Prop :=
  m.slots.length = n
    ∧ collate lt ((List.range n).map fun i => (m.slot i).toList ++ left i) = ys

/-- The rows of the first `n` sources. -/
theorem rows_children_iff {g : Group σ (Merge α) Nat α} {n : Nat} {s : σ} {m : Merge α} :
    Rows (children g n) s m rows ↔ ∃ left, g.Holds s m left ∧ m.slots.length = n
      ∧ rows = (List.range n).map fun i => (m.slot i).toList ++ left i := by
  have hlen : (children g n).sources.length = n := by simp [children]
  constructor
  · intro h
    obtain ⟨xss, ⟨left, hleft, rfl⟩, hrows⟩ := h.holds
    have hcount : rows.length = n := h.length_sources.symm.trans hlen
    refine ⟨left, hleft, h.length_slots.trans hcount, ?_⟩
    apply List.ext_getElem
    · simp [hcount]
    · intro i hi hi'
      obtain ⟨xs, hxs, hrow⟩ := hrows i rows[i] (List.getElem?_eq_getElem hi)
      rw [List.getElem?_map, List.getElem?_range (by omega), Option.map_some,
        Option.some.injEq] at hxs
      rw [hrow, List.getElem_map, List.getElem_range, hxs]
  · rintro ⟨left, hleft, hslots, rfl⟩
    refine ⟨by simp [hslots], by simp [hlen], _, ⟨left, hleft, rfl⟩, fun i row hrow => ?_⟩
    rw [List.getElem?_map] at hrow
    obtain ⟨j, hj, rfl⟩ := Option.map_eq_some_iff.mp hrow
    obtain ⟨hi, hij⟩ := List.getElem?_eq_some_iff.mp hj
    rw [List.getElem_range] at hij
    subst hij
    exact ⟨left i, by rw [List.getElem?_map, hj]; rfl, rfl⟩

theorem has_iff {g : Group σ (Merge α) Nat α} {n : Nat} {s : σ} {ys : List α} :
    g.Has (Rest n lt) s ys ↔ ∃ m rows, Rows (children g n) s m rows ∧ collate lt rows = ys := by
  constructor
  · rintro ⟨m, left, h, hslots, hys⟩
    exact ⟨m, _, rows_children_iff.mpr ⟨left, h, hslots, rfl⟩, hys⟩
  · rintro ⟨m, rows, h, hys⟩
    obtain ⟨left, hleft, hslots, rfl⟩ := rows_children_iff.mp h
    exact ⟨m, left, hleft, hslots, hys⟩

theorem gives [Inhabited α] (g : Group σ (Merge α) Nat α) (n : Nat) (lt : α → α → Bool) :
    Gives (forward g.self ((List.range n).map g.source) (weigh lt)) (g.Has (Rest n lt)) where
  hasNext_apply := by
    intro s ys hys
    obtain ⟨m, rows, h, rfl⟩ := has_iff.mp hys
    obtain ⟨s', hask, h'⟩ := h.hasNext
    rw [any_eq_collate lt] at hask
    exact ⟨s', hask, has_iff.mpr ⟨m, rows, h', rfl⟩⟩
  next_of_cons := by
    intro s y ys hys
    obtain ⟨m, rows, h, hys⟩ := has_iff.mp hys
    match hpick : pick lt rows 0 none with
    | none =>
        rw [collate, collateUpTo_of_pick_none hpick] at hys
        exact absurd hys.symm (List.cons_ne_nil y ys)
    | some (i, x) =>
        obtain ⟨rest, s', m', hrow, hnext, h', -⟩ := h.next_of_pick hpick
        rw [collate_of_pick hpick hrow] at hys
        obtain ⟨rfl, hrest⟩ := List.cons.inj hys
        exact ⟨s', hnext, has_iff.mpr ⟨m', _, h', hrest⟩⟩
  next_of_nil := by
    intro s hys
    obtain ⟨m, rows, h, hys⟩ := has_iff.mp hys
    match hpick : pick lt rows 0 none with
    | none =>
        obtain ⟨s', m', hnext, h'⟩ := h.next_of_pick_none hpick
        exact ⟨s', hnext, has_iff.mpr ⟨m', rows, h', hys⟩⟩
    | some (i, x) =>
        obtain ⟨rest, hrow⟩ := row_of_pick hpick
        rw [collate_of_pick hpick hrow] at hys
        exact absurd hys (List.cons_ne_nil _ _)

end Merge

/-! ## §5. Buffers. -/

namespace Buffer

/-- What is left in front of the gap of a buffer. -/
def Rest (b : Buffer α) (rest ys : List α) : Prop :=
  ∃ z : Zipper α, b.Spans rest z ∧ z.front = ys

theorem gives (host : Host σ (Buffer α) α) (strict : Act σ Bool) :
    Gives (twoWay strict host.self host.source).toForward (host.Has Rest) where
  hasNext_apply := by
    rintro s ys ⟨b, rest, h, z, hb, rfl⟩
    obtain ⟨s', hask, h'⟩ := hasNext_apply h hb
    exact ⟨s', hask, b, rest, h', z, hb, rfl⟩
  next_of_cons := by
    rintro s y ys ⟨b, rest, h, z, hb, hz⟩
    obtain ⟨s', b', rest', hnext, h', hb'⟩ := next_of_front h hb hz
    exact ⟨s', hnext, b', rest', h', _, hb', by simp [Zipper.cross, hz]⟩
  next_of_nil := by
    rintro s ⟨b, rest, h, z, hb, hz⟩
    obtain ⟨s', hnext, h'⟩ := next_of_front_nil h hb hz
    exact ⟨s', hnext, b, rest, h', z, hb, hz⟩

end Buffer

end Cursors
