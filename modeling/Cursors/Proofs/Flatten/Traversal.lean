/-
  Cursors.Proofs.Flatten.Traversal
  ────────────────────────────────
  **A FLATTENING IS A DEPTH-FIRST TRAVERSAL.**

  Each open branch has a forest still to be examined (`Open`), and what the
  whole stack has ahead is the row of the visits of these forests, deepest
  branch first.  One round of the search takes off the first of them, or
  leaves an exhausted branch; so a search goes on up to the first outcome
  (`search_apply`).  Over a run, the outcomes are met one by one as the
  recursion on the forest gives them, and at any time exactly those values
  have been classified that lie before the outcome met last
  (`flatten_traverses`).
-/
import Cursors.Proofs.Flatten.Grove

namespace Cursors

namespace Orchard

variable {σ ι α : Type} [DecidableEq ι]

/-! ## §1. Open branches. -/

/-- The visits that a stack of forests has ahead. -/
def ahead (o : Orchard σ ι α) (fs : List (Forest α)) : List (Visit α) :=
  fs.flatMap (Forest.visits o.raised)

/-- The number of rounds that it takes to get through a stack of forests. -/
def load : List (Forest α) → Nat
  | [] => 0
  | f :: fs => f.weight + 1 + load fs

/-- The open branches have `fs` still to be examined. -/
structure Open (o : Orchard σ ι α) (r : Record ι α) (s : σ) (t : Flatten ι α)
    (fs : List (Forest α)) : Prop where
  holds : ∃ left, o.Holds r s t left ∧ t.stack.map left = fs.map Forest.values
  nodup : t.stack.Nodup
  opened : ∀ i ∈ t.stack, i ∈ r.opened
  follows : ∀ f ∈ fs, f.Follows o.kind

variable {o : Orchard σ ι α} {r : Record ι α} {s : σ} {t : Flatten ι α} {fs : List (Forest α)}
  {f rest below : Forest α} {top : ι} {stack : List ι} {left : ι → List α} {v x : α}

theorem Open.self_get (h : o.Open r s t fs) : o.self.get s = t := by
  obtain ⟨left, hleft, -⟩ := h.holds
  exact o.self_get hleft

theorem follows_cons (hf : f.Follows o.kind) (hfs : ∀ g ∈ fs, g.Follows o.kind) :
    ∀ g ∈ f :: fs, g.Follows o.kind := by
  intro g hg
  rcases List.mem_cons.mp hg with rfl | hg
  · exact hf
  · exact hfs g hg

/-- The flattening changes, but not its stack. -/
theorem Open.write (h : o.Open r s t fs) {t' : Flatten ι α} (hstack : t'.stack = t.stack) :
    o.Open r (o.self.set t' s) t' fs := by
  obtain ⟨left, hleft, hrows⟩ := h.holds
  refine ⟨⟨left, o.self_set hleft t', ?_⟩, ?_, ?_, h.follows⟩ <;> rw [hstack]
  · exact hrows
  · exact h.nodup
  · exact h.opened

/-- The deepest branch is left. -/
theorem Open.popped (h : o.Open r s t (.nil :: fs)) (hstack : t.stack = top :: stack) :
    o.Open r (o.self.set { t with stack := stack } s) { t with stack := stack } fs := by
  obtain ⟨left, hleft, hrows⟩ := h.holds
  have hnodup := h.nodup
  have hopened := h.opened
  rw [hstack] at hrows hnodup hopened
  exact ⟨⟨left, o.self_set hleft _, (List.cons.inj hrows).2⟩, (List.nodup_cons.mp hnodup).2,
    fun i hi => hopened i (List.mem_cons_of_mem top hi),
    fun g hg => h.follows g (List.mem_cons_of_mem _ hg)⟩

/-- The deepest branch is asked whether it has more. -/
theorem Open.hasNext (h : o.Open r s t (f :: fs)) (hstack : t.stack = top :: stack) :
    ∃ s', (o.elements top).hasNext s = .value (!f.values.isEmpty) s'
      ∧ o.Open r s' t (f :: fs) := by
  obtain ⟨left, hleft, hrows⟩ := h.holds
  have hgives := o.gives (h.opened top (by simp [hstack])) t left
  obtain ⟨s', hask, h'⟩ := hgives.hasNext_at hleft
  have htop : left top = f.values := by
    rw [hstack] at hrows
    exact (List.cons.inj hrows).1
  rw [htop] at hask
  exact ⟨s', hask, ⟨left, h', hrows⟩, h.nodup, h.opened, h.follows⟩

/-- The deepest branch gives its next value. -/
theorem Open.next (h : o.Open r s t (f :: fs)) (hstack : t.stack = top :: stack)
    (hvalues : f.values = v :: rest.values) (hrest : rest.Follows o.kind) :
    ∃ s', (o.elements top).next s = .value v s' ∧ o.Open r s' t (rest :: fs) := by
  obtain ⟨left, hleft, hrows⟩ := h.holds
  have hgives := o.gives (h.opened top (by simp [hstack])) t left
  have hnodup := h.nodup
  rw [hstack] at hrows hnodup
  obtain ⟨htop, hrows⟩ := List.cons.inj hrows
  obtain ⟨s', hpull, h'⟩ := hgives.next_at_cons hleft (htop.trans hvalues)
  refine ⟨s', hpull, ⟨_, h', ?_⟩, h.nodup, h.opened,
    follows_cons hrest fun g hg => h.follows g (List.mem_cons_of_mem _ hg)⟩
  rw [hstack, List.map_cons, Function.update_self, map_update (List.nodup_cons.mp hnodup).1, hrows,
    List.map_cons]

/-! ### Values of every kind. -/

/-- A leaf is no branch. -/
theorem Open.leaf (h : o.Open r s t fs) (hkind : o.kind v = .leaf x) :
    ∃ s', o.nesting.classify v s = .value x s' ∧ o.nesting.branch x s' = .value none s'
      ∧ o.Open (r.note v) s' t fs := by
  obtain ⟨left, hleft, hrows⟩ := h.holds
  obtain ⟨hplain, s', hask, h'⟩ := o.ask_of_leaf hleft hkind
  exact ⟨s', Guard.call_of_value hask, o.branch_of_plain hplain s',
    ⟨left, h', hrows⟩, h.nodup, h.opened, h.follows⟩

theorem Open.fails (h : o.Open r s t fs) {e : Failure} (hkind : o.kind v = .fails e) :
    ∃ s', o.nesting.classify v s = .failure (o.raised v e) s' ∧ o.Open (r.note v) s' t fs := by
  obtain ⟨left, hleft, hrows⟩ := h.holds
  obtain ⟨s', hask, h'⟩ := o.ask_of_fails hleft hkind
  exact ⟨s', Guard.call_of_failure hask, ⟨left, h', hrows⟩, h.nodup, h.opened, h.follows⟩

/-- A branch is opened on top of the others. -/
theorem Open.branch (h : o.Open r s t fs) (hkind : o.kind v = .branch below.values)
    (hbelow : below.Follows o.kind) :
    ∃ y s₁ i s₂ r', o.nesting.classify v s = .value y s₁
      ∧ o.nesting.branch y s₁ = .value (some i) s₂ ∧ o.self.get s₂ = t
      ∧ r'.asked = r.asked ++ [v]
      ∧ o.Open r' (o.self.set { t with stack := i :: t.stack } s₂)
          { t with stack := i :: t.stack } (below :: fs) := by
  obtain ⟨left, hleft, hrows⟩ := h.holds
  obtain ⟨y, s₁, hask, h₁, hfresh⟩ := o.ask_of_branch hleft hkind
  obtain ⟨i, s₂, hi, hbranch, h₂⟩ := o.branch_of_fresh h₁ hfresh
  have hnot : i ∉ t.stack := fun hmem => hi (h.opened i hmem)
  refine ⟨y, s₁, i, s₂, _, Guard.call_of_value hask, hbranch, o.self_get h₂, rfl,
    ⟨_, o.self_set h₂ _, ?_⟩, List.nodup_cons.mpr ⟨hnot, h.nodup⟩, ?_,
    follows_cons hbelow h.follows⟩
  · rw [List.map_cons, Function.update_self, map_update hnot, hrows, List.map_cons]
  · intro j hj
    rcases List.mem_cons.mp hj with rfl | hj
    · exact List.mem_cons_self
    · exact List.mem_cons_of_mem _ (h.opened j hj)

/-! ## §2. One search. -/

/-- The visits of a search, those ahead afterwards, and what the search comes to. -/
inductive Finds : List (Visit α) → List (Visit α) → Except Failure (Option α) → Prop where
  | nothing {made : List (Visit α)} (hmade : ∀ m ∈ made, m.outcome = none) :
      Finds made [] (.ok none)
  | outcome {pre rest : List (Visit α)} {m : Visit α} {a : Except Failure α}
      (hpre : ∀ m ∈ pre, m.outcome = none) (hm : m.outcome = some a) :
      Finds (pre ++ [m]) rest (a.map some)

/-- A visit without outcome comes before. -/
theorem Finds.cons {made rest : List (Visit α)} {a : Except Failure (Option α)}
    (h : Finds made rest a) {m : Visit α} (hm : m.outcome = none) : Finds (m :: made) rest a := by
  have hcons : ∀ {ms : List (Visit α)}, (∀ m ∈ ms, m.outcome = none) →
      ∀ m' ∈ m :: ms, m'.outcome = none := by
    intro ms hms m' hm'
    rcases List.mem_cons.mp hm' with rfl | hm'
    · exact hm
    · exact hms m' hm'
  cases h with
  | nothing hmade => exact .nothing (hcons hmade)
  | outcome hpre hmet => exact .outcome (hcons hpre) hmet

/-- The first of the visits ahead meets an outcome. -/
theorem Finds.head (m : Visit α) {rest : List (Visit α)} {a : Except Failure α}
    (hm : m.outcome = some a) : Finds [m] rest (a.map some) := by
  have hnone : ∀ m ∈ ([] : List (Visit α)), m.outcome = none := by simp
  exact .outcome hnone hm

/-- A search that has `ms` ahead, with a load of `n`, visits on up to an outcome. -/
def Seeks (o : Orchard σ ι α) (r : Record ι α) (t : Flatten ι α) (n : Nat) (ms : List (Visit α))
    (out : Outcome σ (Option α)) : Prop :=
  ∃ made a s' r' stack fs', out = .of a s' ∧ ms = made ++ o.ahead fs'
    ∧ Finds made (o.ahead fs') a ∧ r'.asked = r.asked ++ made.map Visit.value
    ∧ o.Open r' s' { t with stack := stack } fs' ∧ load fs' ≤ n

/-- What comes after a first visit without outcome. -/
theorem Seeks.cons {ms : List (Visit α)} {out : Outcome σ (Option α)} {r' : Record ι α}
    {m : Visit α} {n n' : Nat} (h : Seeks o r' { t with stack := stack } n ms out)
    (hm : m.outcome = none) (hasked : r'.asked = r.asked ++ [m.value]) (hn : n ≤ n') :
    Seeks o r t n' (m :: ms) out := by
  obtain ⟨made, a, s', r₁, stack', fs', hout, hms, hfinds, hr₁, h', hload⟩ := h
  refine ⟨m :: made, a, s', r₁, stack', fs', hout, ?_, hfinds.cons hm, ?_, h',
    Nat.le_trans hload hn⟩
  · rw [hms, List.cons_append]
  · rw [hr₁, hasked, List.append_assoc, List.map_cons, List.singleton_append]

/-- A search that ends at the first value it examines. -/
theorem Open.seeks {r' : Record ι α} (h : o.Open r' s t fs) {out : Outcome σ (Option α)} {a : Except Failure α}
    (hout : out = .of (a.map some) s) (hasked : r'.asked = r.asked ++ [v]) {n : Nat}
    (hload : load fs ≤ n) : Seeks o r t n (⟨v, some a⟩ :: o.ahead fs) out :=
  ⟨[⟨v, some a⟩], a.map some, s, r', t.stack, fs, hout, rfl, .head ⟨v, some a⟩ rfl, hasked, h,
    hload⟩

theorem ahead_cons (o : Orchard σ ι α) (f : Forest α) (fs : List (Forest α)) :
    o.ahead (f :: fs) = f.visits o.raised ++ o.ahead fs := List.flatMap_cons

theorem load_cons (f : Forest α) (fs : List (Forest α)) :
    load (f :: fs) = f.weight + 1 + load fs := rfl

/-- How a search goes on once it knows what an examined value comes to: into a branch, or not any
further if the value is a leaf. -/
def resume (o : Orchard σ ι α) (fuel : Nat) (x : α) : Option ι → Act σ (Option α)
  | some b => do
      o.self.modify fun t => { t with stack := b :: t.stack }
      Flatten.search o.self o.nesting fuel
  | none => return some x

/-- The deepest branch gives a value, which is then classified. -/
theorem search_of_next (h : o.Open r s t (f :: fs)) (hstack : t.stack = top :: stack)
    (hvalues : f.values = v :: rest.values) (hrest : rest.Follows o.kind) (fuel : Nat) :
    ∃ s', Flatten.search o.self o.nesting (fuel + 1) s
        = (o.nesting.classify v >>= fun x => o.nesting.branch x >>= o.resume fuel x) s'
      ∧ o.Open r s' t (rest :: fs) := by
  obtain ⟨s₁, hask, h₁⟩ := h.hasNext hstack
  rw [hvalues, List.isEmpty_cons, Bool.not_false] at hask
  obtain ⟨s₂, hnext, h₂⟩ := h₁.next hstack hvalues hrest
  have hask' : (o.nesting.elements top).hasNext s = .value true s₁ := hask
  have hnext' : (o.nesting.elements top).next s₁ = .value v s₂ := hnext
  refine ⟨s₂, ?_, h₂⟩
  simp only [Flatten.search, Act.bind_apply, Field.read_apply, h.self_get, hstack, hask', if_true,
    hnext']
  rfl

/-- An exhausted branch is left. -/
theorem search_of_exhausted (h : o.Open r s t (.nil :: fs)) (hstack : t.stack = top :: stack)
    (fuel : Nat) :
    ∃ s', Flatten.search o.self o.nesting (fuel + 1) s = Flatten.search o.self o.nesting fuel s'
      ∧ o.Open r s' { t with stack := stack } fs := by
  obtain ⟨s₁, hask, h₁⟩ := h.hasNext hstack
  have hask' : (o.nesting.elements top).hasNext s = .value false s₁ := hask
  refine ⟨_, ?_, h₁.popped hstack⟩
  simp only [Flatten.search, Act.bind_apply, Field.read_apply, h.self_get, hstack, hask',
    Bool.false_eq_true, if_false, Flatten.close, h₁.self_get, Field.modify_apply]

/-- A search goes through the open branches up to the first outcome. -/
theorem search_apply {fuel : Nat} (h : o.Open r s t fs) (hfuel : load fs < fuel) :
    Seeks o r t (load fs) (o.ahead fs) (Flatten.search o.self o.nesting fuel s) := by
  -- Each round takes off a part of the load; what follows it is again a search.
  induction fuel generalizing r s t fs with
  | zero => exact absurd hfuel (Nat.not_lt_zero _)
  | succ fuel ih =>
      obtain ⟨left, -, hrows⟩ := h.holds
      match hstack : t.stack, fs with
      | [], f :: fs => rw [hstack] at hrows; exact absurd hrows (by simp)
      | top :: stack, [] => rw [hstack] at hrows; exact absurd hrows (by simp)
      | [], [] =>
          refine ⟨[], .ok none, s, r, t.stack, [], ?_, rfl, .nothing (by simp), by simp, h,
            Nat.le_refl _⟩
          simp only [Flatten.search, Act.bind_apply, Field.read_apply, h.self_get, hstack]
          rfl
      | top :: stack, .nil :: fs =>
          obtain ⟨s', hround, h'⟩ := search_of_exhausted h hstack fuel
          rw [load_cons, Forest.weight] at hfuel
          obtain ⟨made, a, s₁, r₁, stack', fs', hout, hms, hfinds, hr₁, h₁, hload⟩ :=
            ih h' (by omega)
          rw [ahead_cons, Forest.visits, List.nil_append, load_cons]
          exact ⟨made, a, s₁, r₁, stack', fs', hround.trans hout, hms, hfinds, hr₁, h₁, by omega⟩
      | top :: stack, .leaf v x rest :: fs =>
          obtain ⟨hkind, hrest⟩ := h.follows _ List.mem_cons_self
          obtain ⟨s₁, hround, h₁⟩ := search_of_next h hstack rfl hrest fuel
          obtain ⟨s₂, hclassify, hbranch, h₂⟩ := h₁.leaf hkind
          have hout : Flatten.search o.self o.nesting (fuel + 1) s
              = .of ((Except.ok x).map some) s₂ := by
            simp only [hround, Act.bind_apply, hclassify, hbranch]
            rfl
          have hload : load (rest :: fs) ≤ load (.leaf v x rest :: fs) := by
            rw [load_cons, load_cons, Forest.weight]
            omega
          rw [ahead_cons, Forest.visits, List.cons_append, ← ahead_cons]
          exact h₂.seeks hout rfl hload
      | top :: stack, .fails v e rest :: fs =>
          obtain ⟨hkind, hrest⟩ := h.follows _ List.mem_cons_self
          obtain ⟨s₁, hround, h₁⟩ := search_of_next h hstack rfl hrest fuel
          obtain ⟨s₂, hclassify, h₂⟩ := h₁.fails hkind
          have hout : Flatten.search o.self o.nesting (fuel + 1) s
              = .of ((Except.error (o.raised v e)).map some) s₂ := by
            simp only [hround, Act.bind_apply, hclassify]
            rfl
          have hload : load (rest :: fs) ≤ load (.fails v e rest :: fs) := by
            rw [load_cons, load_cons, Forest.weight]
            omega
          rw [ahead_cons, Forest.visits, List.cons_append, ← ahead_cons]
          exact h₂.seeks hout rfl hload
      | top :: stack, .branch v below rest :: fs =>
          obtain ⟨hkind, hbelow, hrest⟩ := h.follows _ List.mem_cons_self
          obtain ⟨s₁, hround, h₁⟩ := search_of_next h hstack rfl hrest fuel
          obtain ⟨y, s₂, i, s₃, r', hclassify, hbranch, hself, hasked, h₃⟩ :=
            h₁.branch hkind hbelow
          rw [load_cons, Forest.weight] at hfuel
          have hload : load (below :: rest :: fs) ≤ load (.branch v below rest :: fs) := by
            rw [load_cons, load_cons, load_cons, Forest.weight]
            omega
          have hsearch := ih h₃ (by rw [load_cons, load_cons]; omega)
          have hstep : Flatten.search o.self o.nesting (fuel + 1) s
              = Flatten.search o.self o.nesting fuel
                  (o.self.set { t with stack := i :: t.stack } s₃) := by
            simp only [hround, Act.bind_apply, hclassify, hbranch, resume, Field.modify_apply,
              hself]
          rw [hstep, ahead_cons, Forest.visits, List.cons_append, List.append_assoc, ← ahead_cons,
            ← ahead_cons]
          exact hsearch.cons rfl hasked hload

/-! ## §3. The start. -/

/-- The flattening is new, and what its root comes to is `f`: nothing, the values of an iterator,
or the root itself. -/
inductive Planted (o : Orchard σ ι α) (s : σ) : Forest α → Prop where
  | bare {left : ι → List α} (holds : o.Holds {} s {} left) : Planted o s .nil
  | walk {left : ι → List α} {x : α} {f : Forest α} (holds : o.Holds {} s { root := some x } left)
      (hx : o.Fresh s x f.values) : Planted o s f
  | value {left : ι → List α} {x : α} {f : Forest α} (holds : o.Holds {} s { root := some x } left)
      (hx : o.Plain x) (hf : f.values = [x]) : Planted o s f

theorem Planted.ahead_eq (h : o.Planted s f) : (o.self.get s).ahead = none := by
  cases h with
  | bare hs | walk hs _ | value hs _ _ => rw [o.self_get hs]

theorem Planted.asked_eq (h : o.Planted s f) : o.asked s = [] := by
  cases h with
  | bare hs | walk hs _ | value hs _ _ => exact o.asked_eq hs

/-- From here, a search for the next leaf has `ms` ahead. -/
def Ready (o : Orchard σ ι α) (s : σ) (made : List (Visit α)) (n : Nat) (ms : List (Visit α)) :
    Prop :=
  ∃ s' t r fs, (∀ fuel, Flatten.find fuel o.self o.nesting s
      = Flatten.search o.self o.nesting fuel s')
    ∧ o.Open r s' t fs ∧ t.started = true ∧ t.ahead = none ∧ r.asked = made.map Visit.value
    ∧ o.ahead fs = ms ∧ load fs ≤ n

theorem ahead_singleton (o : Orchard σ ι α) (f : Forest α) :
    o.ahead [f] = f.visits o.raised := by
  rw [ahead_cons]
  exact List.append_nil _

theorem find_of_start (hnew : (o.self.get s).started = false) {s' : σ}
    (hstart : Flatten.start o.self o.nesting s = .value () s') (fuel : Nat) :
    Flatten.find fuel o.self o.nesting s = Flatten.search o.self o.nesting fuel s' := by
  simp only [Flatten.find, Act.bind_apply, Field.read_apply, hnew, Bool.not_false, if_true, hstart]

/-- The root is opened on the first search. -/
theorem Planted.ready (h : o.Planted s f) (hf : f.Follows o.kind) :
    o.Ready s [] (f.weight + 1) (f.visits o.raised) := by
  have hfollows : ∀ g ∈ [f], g.Follows o.kind := by
    intro g hg
    rw [List.mem_singleton.mp hg]
    exact hf
  have hload : load [f] ≤ f.weight + 1 := by rw [load_cons]; exact Nat.le_refl _
  have hopen : ∀ {r : Record ι α} {s : σ} {t : Flatten ι α} {left : ι → List α} {i : ι},
      o.Holds { r with opened := [i] } s t (Function.update left i f.values) → t.stack = [] →
        o.Open { r with opened := [i] } (o.self.set { t with stack := [i] } s)
          { t with stack := [i] } [f] := by
    intro r s t left i hs ht
    refine ⟨⟨_, o.self_set hs _, ?_⟩, List.pairwise_singleton _ i, fun j hj => hj, hfollows⟩
    rw [List.map_singleton, Function.update_self, List.map_singleton]
  cases h with
  | bare hs =>
      refine ⟨_, { started := true }, {}, [], find_of_start (by rw [o.self_get hs]) ?_,
        ⟨⟨_, o.self_set hs _, rfl⟩, List.nodup_nil, by simp, by simp⟩, rfl, rfl, rfl, rfl,
        Nat.zero_le _⟩
      simp only [Flatten.start, Act.bind_apply, Field.read_apply, o.self_get hs,
        Field.modify_apply]
      rfl
  | @walk left x f hs hx =>
      have hs₁ := o.self_set hs { started := true }
      obtain ⟨i, s₂, -, hbranch, hs₂⟩ := o.branch_of_fresh hs₁ (o.fresh_set hx _)
      refine ⟨_, _, _, [f], find_of_start (by rw [o.self_get hs]) ?_, hopen hs₂ rfl, rfl, rfl, rfl,
        ahead_singleton o f, hload⟩
      have hbranch' : o.nesting.branch x (o.self.set { started := true } s) = _ := hbranch
      simp only [Flatten.start, Act.bind_apply, Field.read_apply, o.self_get hs,
        Field.modify_apply, hbranch', Act.pure_apply, o.self_get hs₂]
  | @value left x f hs hx hvalues =>
      have hs₁ := o.self_set hs { started := true }
      obtain ⟨i, s₂, hsingle, hs₂⟩ := o.single_of_plain hs₁ rfl hx
      rw [← hvalues] at hs₂
      refine ⟨_, _, _, [f], find_of_start (by rw [o.self_get hs]) ?_, hopen hs₂ rfl, rfl, rfl, rfl,
        ahead_singleton o f, hload⟩
      have hbranch : o.nesting.branch x (o.self.set { started := true } s) = _ :=
        o.branch_of_plain hx _
      have hsingle' : o.nesting.single x (o.self.set { started := true } s) = _ := hsingle
      simp only [Flatten.start, Act.bind_apply, Field.read_apply, o.self_get hs,
        Field.modify_apply, hbranch, hsingle', o.self_get hs₂]

/-- Once it has started, a flattening goes on from where it is. -/
theorem Open.ready (h : o.Open r s t fs) (hstarted : t.started = true) (hahead : t.ahead = none)
    {made : List (Visit α)} (hasked : r.asked = made.map Visit.value) {n : Nat}
    (hload : load fs ≤ n) : o.Ready s made n (o.ahead fs) := by
  refine ⟨s, t, r, fs, fun fuel => ?_, h, hstarted, hahead, hasked, rfl, hload⟩
  simp only [Flatten.find, Act.bind_apply, Field.read_apply, h.self_get, hstarted]
  rfl

/-! ## §4. Runs. -/

/-- What a call answers where the outcomes `os` are still to come, and those to come after it.  A
leaf that was only asked about is still to come; a failure is met once. -/
def reply (owner : String) : Pull → List (Except Failure α) →
    Except Failure (Answer α) × List (Except Failure α)
  | .remove, os => (.error (.unsupported owner .remove), os)
  | .hasNext, [] => (.ok (.truth false), [])
  | .hasNext, .ok x :: os => (.ok (.truth true), .ok x :: os)
  | .next, [] => (.error .ended, [])
  | .next, .ok x :: os => (.ok (.element x), os)
  | _, .error e :: os => (.error e, os)

/-- The values classified so far are those up to the last outcome that was met: where `os` are
still to come, all before these have been met, and at most a leaf or the end beyond. -/
def Examined (o : Orchard σ ι α) (visits : List (Visit α)) (s : σ)
    (os : List (Except Failure α)) : Prop :=
  ∃ n, o.asked s = (Visit.upTo n visits).map Visit.value
    ∧ (n + os.length = (visits.filterMap Visit.outcome).length
      ∨ n + os.length = (visits.filterMap Visit.outcome).length + 1
        ∧ ∀ e, os.head? ≠ some (.error e))

/-- Call by call, the flattening meets the outcomes `os`. -/
def Traverses (o : Orchard σ ι α) (owner : String) (fuel : Nat) (visits : List (Visit α)) :
    List Pull → σ → List (Except Failure α) → Prop
  | [], s, os => o.Examined visits s os
  | p :: ps, s, os =>
      o.Examined visits s os
        ∧ ∃ s', p.ask (o.source owner fuel) s = .of (reply owner p os).1 s'
          ∧ Traverses o owner fuel visits ps s' (reply owner p os).2

/-- Where a flattening can be between two calls: `n` bounds what is left to search, and a leaf is
held ahead or not. -/
inductive Stage (o : Orchard σ ι α) (n : Nat) (visits : List (Visit α)) :
    σ → List (Except Failure α) → Prop where
  | free {s : σ} {made ms : List (Visit α)} (ready : o.Ready s made n ms)
      (hget : (o.self.get s).ahead = none) (hasked : o.asked s = made.map Visit.value)
      (hvisits : visits = made ++ ms) (hstops : Visit.Stops made ∨ ms = []) :
      Stage o n visits s (ms.filterMap Visit.outcome)
  | held {r : Record ι α} {s : σ} {t : Flatten ι α} {fs : List (Forest α)} {x : α}
      {made : List (Visit α)} (opens : o.Open r s t fs) (hstarted : t.started = true)
      (hahead : t.ahead = some x) (hasked : r.asked = made.map Visit.value)
      (hvisits : visits = made ++ o.ahead fs) (hstops : Visit.Stops made) (hload : load fs ≤ n) :
      Stage o n visits s (.ok x :: (o.ahead fs).filterMap Visit.outcome)

variable {n fuel : Nat} {visits : List (Visit α)} {os : List (Except Failure α)}

theorem Open.asked_eq (h : o.Open r s t fs) : o.asked s = r.asked := by
  obtain ⟨left, hleft, -⟩ := h.holds
  exact o.asked_eq hleft

/-- At no time has a value been classified beyond the next outcome that counts. -/
theorem Stage.examined (h : o.Stage n visits s os) : o.Examined visits s os := by
  cases h with
  | @free _ made ms ready hget hasked hvisits hstops =>
      subst hvisits
      rcases hstops with hstops | rfl
      · refine ⟨(made.filterMap Visit.outcome).length, ?_, .inl ?_⟩
        · rw [Visit.upTo_of_stops hstops rfl, hasked]
        · rw [List.filterMap_append, List.length_append]
      · refine ⟨(made.filterMap Visit.outcome).length + 1, ?_, .inr ⟨?_, by simp⟩⟩
        · rw [List.append_nil, Visit.upTo_of_lt (Nat.lt_succ_self _), hasked]
        · rw [List.append_nil]
          rfl
  | @held r _ t fs x made opens hstarted hahead hasked hvisits hstops hload =>
      subst hvisits
      refine ⟨(made.filterMap Visit.outcome).length, ?_, .inr ⟨?_, by simp⟩⟩
      · rw [Visit.upTo_of_stops hstops rfl, opens.asked_eq, hasked]
      · rw [List.length_cons, List.filterMap_append, List.length_append, Nat.add_assoc]

/-- Between two calls with no leaf held. -/
theorem Open.free (h : o.Open r s t fs) (hstarted : t.started = true) (hahead : t.ahead = none)
    {made : List (Visit α)} (hasked : r.asked = made.map Visit.value) (hload : load fs ≤ n)
    (hvisits : visits = made ++ o.ahead fs) (hstops : Visit.Stops made ∨ o.ahead fs = []) :
    o.Stage n visits s ((o.ahead fs).filterMap Visit.outcome) :=
  .free (h.ready hstarted hahead hasked hload) (by rw [h.self_get, hahead])
    (h.asked_eq.trans hasked) hvisits hstops

/-- What a search leads to. -/
inductive Met (o : Orchard σ ι α) (n : Nat) (visits : List (Visit α)) :
    List (Except Failure α) → Outcome σ (Option α) → Prop where
  | nothing {s : σ} (stage : o.Stage n visits s []) : Met o n visits [] (.value none s)
  | failure {s : σ} {e : Failure} {os : List (Except Failure α)} (stage : o.Stage n visits s os) :
      Met o n visits (.error e :: os) (.failure e s)
  | leaf {r : Record ι α} {s : σ} {t : Flatten ι α} {fs : List (Forest α)} {x : α}
      {made : List (Visit α)} (opens : o.Open r s t fs) (hstarted : t.started = true)
      (hasked : r.asked = made.map Visit.value) (hvisits : visits = made ++ o.ahead fs)
      (hstops : Visit.Stops made) (hload : load fs ≤ n) :
      Met o n visits (.ok x :: (o.ahead fs).filterMap Visit.outcome) (.value (some x) s)

theorem filterMap_of_none {ms : List (Visit α)} (h : ∀ m ∈ ms, m.outcome = none) :
    ms.filterMap Visit.outcome = [] := by
  rw [List.filterMap_eq_nil_iff]
  exact h

/-- A search that is ready meets the next outcome. -/
theorem Ready.met {made ms : List (Visit α)} (h : o.Ready s made n ms) (hfuel : n < fuel)
    (hvisits : visits = made ++ ms) :
    Met o n visits (ms.filterMap Visit.outcome) (Flatten.find fuel o.self o.nesting s) := by
  obtain ⟨s₁, t, r, fs, hfind, hopen, hstarted, hahead, hasked, rfl, hload⟩ := h
  obtain ⟨made', a, s₂, r', stack, fs', hout, hms, hfinds, hasked', h', hload'⟩ :=
    search_apply hopen (Nat.lt_of_le_of_lt hload hfuel)
  have hvisits' : visits = (made ++ made') ++ o.ahead fs' := by
    rw [hvisits, hms, List.append_assoc]
  have hmap : r'.asked = (made ++ made').map Visit.value := by
    rw [hasked', hasked, List.map_append]
  have hn : load fs' ≤ n := Nat.le_trans hload' hload
  rw [hfind, hout, hms]
  generalize hrest : o.ahead fs' = rest at hfinds hvisits' ⊢
  cases hfinds with
  | nothing hmade =>
      rw [List.append_nil, filterMap_of_none hmade]
      have hstage := h'.free hstarted hahead hmap hn (hvisits'.trans (hrest ▸ rfl)) (.inr hrest)
      rw [hrest] at hstage
      exact .nothing hstage
  | @outcome pre _ m a hpre hm =>
      have hstops : Visit.Stops (made ++ (pre ++ [m])) := by
        rw [← List.append_assoc]
        exact Visit.stops_append_singleton _ (by rw [hm]; rfl)
      subst hrest
      rw [List.append_assoc, List.filterMap_append, filterMap_of_none hpre, List.nil_append,
        List.singleton_append, List.filterMap_cons_some hm]
      cases a with
      | error e => exact .failure (h'.free hstarted hahead hmap hn hvisits' (.inl hstops))
      | ok x => exact .leaf h' hstarted hmap hvisits' hstops hn

/-- A question is answered by the next outcome; a leaf is held ahead. -/
theorem Met.hasNext (h : Met o n visits os (Flatten.find fuel o.self o.nesting s))
    (hget : (o.self.get s).ahead = none) (owner : String) :
    ∃ s', Pull.hasNext.ask (o.source owner fuel) s = .of (reply owner .hasNext os).1 s'
      ∧ o.Stage n visits s' (reply owner .hasNext os).2 := by
  have hask : ∀ {r : Except Failure Bool} {s' : σ},
      Flatten.hasNext fuel o.self o.nesting s = .of r s' →
        Pull.hasNext.ask (o.source owner fuel) s = .of (r.map .truth) s' :=
    fun hof => Pull.ask_hasNext_of hof
  generalize hfind : Flatten.find fuel o.self o.nesting s = out at h
  cases h with
  | @nothing s' stage =>
      refine ⟨s', hask (r := .ok false) ?_, stage⟩
      simp only [Flatten.hasNext, Act.bind_apply, Field.read_apply, hget, Option.isSome_none,
        Bool.false_eq_true, if_false, hfind]
      rfl
  | @failure s' e os stage =>
      refine ⟨s', hask (r := .error e) ?_, stage⟩
      simp only [Flatten.hasNext, Act.bind_apply, Field.read_apply, hget, Option.isSome_none,
        Bool.false_eq_true, if_false, hfind]
      rfl
  | @leaf r s' t fs x made opens hstarted hasked hvisits hstops hload =>
      have hopens : o.Open r (o.self.set { t with ahead := some x } s')
          { t with ahead := some x } fs := opens.write rfl
      refine ⟨_, hask (r := .ok true) ?_,
        .held hopens hstarted rfl hasked hvisits hstops hload⟩
      simp only [Flatten.hasNext, Act.bind_apply, Field.read_apply, hget, Option.isSome_none,
        Bool.false_eq_true, if_false, hfind, Field.modify_apply, opens.self_get]
      rfl

/-- A step gives the next outcome. -/
theorem Met.next (h : Met o n visits os (Flatten.find fuel o.self o.nesting s))
    (hget : (o.self.get s).ahead = none) (owner : String) :
    ∃ s', Pull.next.ask (o.source owner fuel) s = .of (reply owner .next os).1 s'
      ∧ o.Stage n visits s' (reply owner .next os).2 := by
  have hask : ∀ {r : Except Failure α} {s' : σ},
      Flatten.next fuel o.self o.nesting s = .of r s' →
        Pull.next.ask (o.source owner fuel) s = .of (r.map .element) s' :=
    fun hof => Pull.ask_next_of hof
  generalize hfind : Flatten.find fuel o.self o.nesting s = out at h
  cases h with
  | @nothing s' stage =>
      refine ⟨s', hask (r := .error .ended) ?_, stage⟩
      simp only [Flatten.next, Act.bind_apply, Field.read_apply, hget, hfind]
      rfl
  | @failure s' e os stage =>
      refine ⟨s', hask (r := .error e) ?_, stage⟩
      simp only [Flatten.next, Act.bind_apply, Field.read_apply, hget, hfind]
      rfl
  | @leaf r s' t fs x made opens hstarted hasked hvisits hstops hload =>
      have hopens : o.Open r (o.self.set { t with ahead := none } s')
          { t with ahead := none } fs := opens.write rfl
      refine ⟨_, hask (r := .ok x) ?_,
        hopens.free hstarted rfl hasked hload hvisits (.inl hstops)⟩
      simp only [Flatten.next, Act.bind_apply, Field.read_apply, hget, hfind,
        Field.modify_apply, opens.self_get]
      rfl

/-- A call answers what comes next, and leads from stage to stage. -/
theorem Stage.ask (h : o.Stage n visits s os) (hfuel : n < fuel) (owner : String) (p : Pull) :
    ∃ s', p.ask (o.source owner fuel) s = .of (reply owner p os).1 s'
      ∧ o.Stage n visits s' (reply owner p os).2 := by
  cases h with
  | @held r _ t fs x made opens hstarted hahead hasked hvisits hstops hload =>
      have hget : (o.self.get s).ahead = some x := by rw [opens.self_get, hahead]
      have hstage : o.Stage n visits s (.ok x :: (o.ahead fs).filterMap Visit.outcome) :=
        .held opens hstarted hahead hasked hvisits hstops hload
      cases p with
      | remove => exact ⟨s, rfl, hstage⟩
      | hasNext =>
          refine ⟨s, Pull.ask_hasNext_of (r := .ok true) ?_, hstage⟩
          show Flatten.hasNext fuel o.self o.nesting s = _
          simp only [Flatten.hasNext, Act.bind_apply, Field.read_apply, hget]
          rfl
      | next =>
          have hopens : o.Open r (o.self.set { t with ahead := none } s)
              { t with ahead := none } fs := opens.write rfl
          refine ⟨_, Pull.ask_next_of (r := .ok x) ?_,
            hopens.free hstarted rfl hasked hload hvisits (.inl hstops)⟩
          show Flatten.next fuel o.self o.nesting s = _
          simp only [Flatten.next, Act.bind_apply, Field.read_apply, opens.self_get, hahead,
            Field.modify_apply]
          rfl
  | @free _ made ms ready hget hasked hvisits hstops =>
      cases p with
      | remove => exact ⟨s, rfl, .free ready hget hasked hvisits hstops⟩
      | hasNext => exact (ready.met hfuel hvisits).hasNext hget owner
      | next => exact (ready.met hfuel hvisits).next hget owner

/-- From stage to stage, a whole run. -/
theorem Stage.traverses (h : o.Stage n visits s os) (hfuel : n < fuel) (owner : String)
    (calls : List Pull) : o.Traverses owner fuel visits calls s os := by
  induction calls generalizing s os with
  | nil => exact h.examined
  | cons p calls ih =>
      obtain ⟨s', hask, hstage⟩ := h.ask hfuel owner p
      exact ⟨h.examined, s', hask, ih hstage⟩

/-- **A flattening is a depth-first traversal.**  It meets the leaves and failures of the forest
below its root from left to right, one after the other, and classifies each value once and no
value before its turn. -/
theorem flatten_traverses (o : Orchard σ ι α) {s : σ} {f : Forest α} (h : o.Planted s f)
    (hf : f.Follows o.kind) {fuel : Nat} (hfuel : f.weight + 1 < fuel) (owner : String)
    (calls : List Pull) :
    o.Traverses owner fuel (f.visits o.raised) calls s (f.outcomes o.raised) := by
  have hstage : o.Stage (f.weight + 1) (f.visits o.raised) s
      ((f.visits o.raised).filterMap Visit.outcome) :=
    .free (h.ready hf) h.ahead_eq h.asked_eq rfl (.inl Visit.stops_nil)
  rw [f.outcomes_eq] at hstage
  exact hstage.traverses hfuel owner calls

end Orchard

namespace Grove

/-- A classifier of numbers: nought has three numbers below it, of which the second fails and the
third has nothing below it. -/
def sample : Thing Nat → Kind Nat
  | .plain 0 => .branch [1, 2, 3]
  | .plain 2 => .fails (.refused .value)
  | .plain 3 => .branch []
  | _ => .leaf 1

/-- What becomes of nought. -/
def sampleForest : Forest (Thing Nat) :=
  .branch (.plain 0)
    (.leaf (.plain 1) (.plain 1)
      (.fails (.plain 2) (.refused .value)
        (.branch (.plain 3) .nil .nil)))
    .nil

/-- A flattening of nought gives one leaf and fails once. -/
theorem flatten_traverses_sample :
    (orchard sample .passthrough fun _ => .ok "report").Traverses "leaves" 20
      (sampleForest.visits fun _ e => e) [.hasNext, .next, .hasNext, .remove, .next]
      { flat := { root := some (.plain 0) } } [.ok (.plain 1), .error (.refused .value)] := by
  have hholds : Holds {} { flat := { root := some (.plain 0) } } { root := some (.plain 0) }
      fun _ => [] := ⟨rfl, rfl, rfl, by simp, by simp⟩
  have hplanted : (orchard sample .passthrough fun _ => .ok "report").Planted
      { flat := { root := some (.plain 0) } } sampleForest :=
    .value hholds trivial rfl
  have hfollows : sampleForest.Follows (fun v => (sample v).things) :=
    ⟨rfl, ⟨rfl, rfl, rfl, trivial, trivial⟩, trivial⟩
  exact Orchard.flatten_traverses _ hplanted hfollows (by decide) "leaves" _

end Grove

end Cursors
