/-
  Cursors.Proofs.Chain.Plan
  ─────────────────────────
  **CHAINS WITHIN CHAINS.**

  A plan says what a chain is given: leaves, and chains that are put together
  after plans of their own.  A chain that was not asked anything yet hands
  over its members; one that was asked for more is kept as a member, and may
  have left some of its leaves already.  Main statement (`nesting_unseen`):

      every row of calls comes to the same as for the chain that is given
      all leaves of the plan directly, from left to right

  It is needed that each leaf has a state of its own, and that a leaf which
  has denied stays at its end unless no chain that was kept without leaves
  comes last.  Otherwise the nesting shows (`nesting_seen`).
-/
import Mathlib.Data.List.SplitLengths
import Cursors.Proofs.Chain.Splice

namespace Cursors

variable {τ Λ α : Type}

/-! ## §1. The links of a chain. -/

/-- A source that a chain may be given, with its state at the start and the leaves in it. -/
structure Link (Λ α : Type) where
  State : Type
  source : Forward State α
  start : State
  leaves : List Λ

namespace Link

/-- A leaf in some state. -/
def ofLeaf (leaf : Forward Λ α) (s : Λ) : Link Λ α where
  State := Λ
  source := leaf
  start := s
  leaves := [s]

theorem flatten_slices (portions : List (List (Link Λ α))) :
    ((portions.map List.length).splitLengths (List.finRange portions.flatten.length)).flatten
      = List.finRange portions.flatten.length := by
  apply List.flatten_splitLengths
  rw [List.length_finRange, List.length_flatten]

/-- The numbers of the links, in the portions in which these come. -/
def roll (portions : List (List (Link Λ α))) : Roll portions.flatten.length where
  portions := (portions.map List.length).splitLengths (List.finRange portions.flatten.length)
  nodup := by
    rw [flatten_slices]
    exact List.nodup_finRange _

theorem names_roll (portions : List (List (Link Λ α))) :
    (roll portions).names = List.finRange portions.flatten.length := flatten_slices portions

/-- A chain that has taken up links, portion by portion, and was asked `asked` times then whether
it has more. -/
def ofChain (portions : List (List (Link Λ α))) (asked : Nat) : Link Λ α where
  State := Node (Chain (Fin portions.flatten.length)) fun i => (portions.flatten.get i).State
  source := Chain.upon fun i => (portions.flatten.get i).source
  start := Nat.iterate (Chain.upon fun i => (portions.flatten.get i).source).hasNext.leaves asked
    (Linkage.built (roll portions) fun i => (portions.flatten.get i).start)
  leaves := portions.flatten.flatMap Link.leaves

/-- The link follows the row of its leaves. -/
def Fits (leaf : Forward Λ α) (l : Link Λ α) : Prop :=
  ∃ Shows : l.State → Row Λ → Prop, Follows leaf l.source Shows
    ∧ ∃ r, Shows l.start r ∧ r.Waits leaf l.leaves

section

variable {leaf : Forward Λ α} {portions : List (List (Link Λ α))}

theorem fits_ofLeaf (h : leaf.Steady) (s : Λ) : (ofLeaf leaf s).Fits leaf :=
  ⟨_, follows_leaf h, ⟨[s], .nobody⟩, ⟨.nobody, rfl, nofun⟩, rfl, rfl⟩

/-- A question does not make a source that waits for its leaves do otherwise. -/
theorem shows_asked (hleaf : leaf.Steady) {source : Forward τ α} {Shows : τ → Row Λ → Prop}
    (h : Follows leaf source Shows) (asked : Nat) {t : τ} {r : Row Λ} {xs : List Λ}
    (ht : Shows t r) (hr : r.Waits leaf xs) :
    ∃ r', Shows (Nat.iterate source.hasNext.leaves asked t) r' ∧ r'.Waits leaf xs := by
  induction asked generalizing t r with
  | zero => exact ⟨r, ht, hr⟩
  | succ asked ih =>
      obtain ⟨t', hask, ht'⟩ := h.hasNext ht
      have hleaves : source.hasNext.leaves t = t' := by
        unfold Act.leaves
        rw [hask]
      have hturned : (r.turned leaf).Waits leaf xs := by
        refine ⟨?_, ?_⟩
        · show Row.leave leaf r.ahead r.giver = .nobody
          rw [hr.1]
          exact Row.leave_nobody _
        · exact (congrArg Row.ahead (Row.turned_turned hleaf r)).trans hr.2
      rw [Function.iterate_succ_apply, hleaves]
      exact ih ht' hturned

/-- A chain of links that follow their rows follows its own, and has nothing but leaves ahead at
the start. -/
theorem spliceable (hleaf : leaf.Steady) (hfits : ∀ l ∈ portions.flatten, l.Fits leaf)
    (hcapped : leaf.Lasting ∨ Splice.Capped (portions.flatten.map Link.leaves)) :
    ∃ Shows, Splice.Spliceable leaf (fun i => (portions.flatten.get i).source) Shows
        (List.finRange portions.flatten.length) (fun i => (portions.flatten.get i).leaves)
      ∧ Splice.Stands leaf Shows (List.finRange portions.flatten.length)
          (fun i => (portions.flatten.get i).leaves) (ofChain portions 0).start
          ⟨(ofChain portions 0).leaves, .nobody⟩ := by
  choose Shows hfollows r hstart hwaits using
    fun i => hfits (portions.flatten.get i) (List.get_mem _ i)
  have hmap : (List.finRange portions.flatten.length).map (fun i => (portions.flatten.get i).leaves)
      = portions.flatten.map Link.leaves := by
    rw [← Function.comp_def, ← List.map_map, List.map_get_finRange]
  have hbuilt : (ofChain portions 0).start
      = { self := { members := List.finRange portions.flatten.length }
          below := fun i => (portions.flatten.get i).start } := by
    rw [← names_roll]
    exact Linkage.built_eq _ _
  refine ⟨Shows, ⟨hleaf, hfollows, List.nodup_finRange _, ?_⟩, ?_⟩
  · rwa [hmap]
  · rw [hbuilt]
    refine ⟨r, ⟨rfl, hstart, fun i => ?_⟩, .inl ⟨rfl, rfl, rfl, fun i _ => hwaits i, ?_⟩⟩
    · have hturn : (r i).ahead = [] ↔ Row.turn leaf (r i).ahead = [] := Row.turn_eq_nil_iff.symm
      rw [hturn, (hwaits i).2, Row.turn_eq_nil_iff]
    · rw [List.flatMap_def, hmap, ← List.flatMap_def]
      rfl

/-- A chain of links that follow their rows is such a link, asked or not. -/
theorem fits_ofChain (hleaf : leaf.Steady) (hfits : ∀ l ∈ portions.flatten, l.Fits leaf)
    (hcapped : leaf.Lasting ∨ Splice.Capped (portions.flatten.map Link.leaves)) (asked : Nat) :
    (ofChain portions asked).Fits leaf := by
  obtain ⟨Shows, hsplice, hstart⟩ := spliceable hleaf hfits hcapped
  exact ⟨_, hsplice.follows_upon, shows_asked hleaf hsplice.follows_upon asked hstart ⟨rfl, rfl⟩⟩

/-- What calls of a chain come to is what the row of its leaves answers. -/
theorem transcript_ofChain (hleaf : leaf.Steady) (hfits : ∀ l ∈ portions.flatten, l.Fits leaf)
    (hcapped : leaf.Lasting ∨ Splice.Capped (portions.flatten.map Link.leaves))
    (calls : List Pull) :
    (transcript (Pull.ask (ofChain portions 0).source) calls (ofChain portions 0).start).map
        (Outcome.seen fun _ => ())
      = (replies (fun call r => Row.respond leaf r call) (fun _ => ()) calls
          ⟨(ofChain portions 0).leaves, .nobody⟩).map some := by
  obtain ⟨Shows, hsplice, hstart⟩ := spliceable hleaf hfits hcapped
  exact hsplice.obeys.transcript_eq calls hstart

end

end Link

/-! ## §2. Plans. -/

/-- What a chain is given, one after the other. -/
inductive Plan (Λ : Type) where
  | nil
  /-- A leaf. -/
  | single (s : Λ) (rest : Plan Λ)
  /-- A chain that was asked `asked` times whether it has more. -/
  | nested (asked : Nat) (inner rest : Plan Λ)
  deriving Repr, DecidableEq

namespace Plan

/-- The leaves from left to right. -/
def leaves : Plan Λ → List Λ
  | nil => []
  | single s rest => s :: rest.leaves
  | nested _ inner rest => inner.leaves ++ rest.leaves

/-- The leaves of each member of the chain. -/
def shape : Plan Λ → List (List Λ)
  | nil => []
  | single s rest => [s] :: rest.shape
  | nested 0 inner rest => inner.shape ++ rest.shape
  | nested (_ + 1) inner rest => inner.leaves :: rest.shape

/-- The chains that are kept as they are, somewhere in the plan. -/
def kept : Plan Λ → List (Plan Λ)
  | nil => []
  | single _ rest => rest.kept
  | nested 0 inner rest => inner.kept ++ rest.kept
  | nested (_ + 1) inner rest => inner :: (inner.kept ++ rest.kept)

/-- No chain of the plan that has leaves has a last member without leaves. -/
def Capped (plan : Plan Λ) : Prop := ∀ p ∈ plan :: plan.kept, Splice.Capped p.shape

/-- The same leaves, given to the chain directly. -/
def flat (plan : Plan Λ) : Plan Λ := plan.leaves.foldr single nil

/-- What the chain takes up: a chain that was not asked yet hands over its members. -/
def portions (leaf : Forward Λ α) : Plan Λ → List (List (Link Λ α))
  | nil => []
  | single s rest => [.ofLeaf leaf s] :: rest.portions leaf
  | nested 0 inner rest => (inner.portions leaf).flatten :: rest.portions leaf
  | nested (asked + 1) inner rest =>
      [.ofChain (inner.portions leaf) (asked + 1)] :: rest.portions leaf

/-- The chain. -/
def chained (leaf : Forward Λ α) (plan : Plan Λ) : Link Λ α := .ofChain (plan.portions leaf) 0

/-- What calls of the chain come to. -/
def run (leaf : Forward Λ α) (plan : Plan Λ) (calls : List Pull) :
    List (Option (Except Failure (Answer α))) :=
  (transcript (Pull.ask (plan.chained leaf).source) calls (plan.chained leaf).start).map
    fun outcome => (outcome.seen fun _ => ()).map Prod.fst

section

variable {leaf : Forward Λ α}

theorem flatten_shape (plan : Plan Λ) : plan.shape.flatten = plan.leaves := by
  induction plan with
  | nil => rfl
  | single s rest ih => exact congrArg (s :: ·) ih
  | nested asked inner rest ihInner ihRest =>
      cases asked with
      | zero => rw [shape, leaves, List.flatten_append, ihInner, ihRest]
      | succ asked => rw [shape, leaves, List.flatten_cons, ihRest]

theorem map_leaves_portions (plan : Plan Λ) :
    (plan.portions leaf).flatten.map Link.leaves = plan.shape := by
  induction plan with
  | nil => rfl
  | single s rest ih => exact congrArg ([s] :: ·) ih
  | nested asked inner rest ihInner ihRest =>
      cases asked with
      | zero => rw [portions, shape, List.flatten_cons, List.map_append, ihInner, ihRest]
      | succ asked =>
          have hinner : (Link.ofChain (inner.portions leaf) (asked + 1)).leaves = inner.leaves := by
            show (inner.portions leaf).flatten.flatMap Link.leaves = _
            rw [List.flatMap_def, ihInner, flatten_shape]
          rw [portions, shape, List.flatten_cons, List.map_append, ihRest, ← hinner]
          rfl

theorem leaves_chained (plan : Plan Λ) : (plan.chained leaf).leaves = plan.leaves := by
  show (plan.portions leaf).flatten.flatMap Link.leaves = _
  rw [List.flatMap_def, map_leaves_portions, flatten_shape]

/-- Everything that is given to the chain follows the row of its leaves. -/
theorem fits_portions (hleaf : leaf.Steady) (plan : Plan Λ)
    (h : leaf.Lasting ∨ ∀ p ∈ plan.kept, Splice.Capped p.shape) :
    ∀ l ∈ (plan.portions leaf).flatten, l.Fits leaf := by
  induction plan with
  | nil => exact nofun
  | single s rest ih =>
      intro l hl
      obtain rfl | hl := List.mem_cons.mp hl
      · exact Link.fits_ofLeaf hleaf s
      · exact ih h l hl
  | nested asked inner rest ihInner ihRest =>
      cases asked with
      | zero =>
          intro l hl
          obtain hl | hl := List.mem_append.mp (List.flatten_cons ▸ hl)
          · exact ihInner (h.imp_right fun h p hp => h p (List.mem_append_left _ hp)) l hl
          · exact ihRest (h.imp_right fun h p hp => h p (List.mem_append_right _ hp)) l hl
      | succ asked =>
          have hinner := ihInner (h.imp_right fun h p hp =>
            h p (List.mem_cons_of_mem inner (List.mem_append_left _ hp)))
          intro l hl
          obtain rfl | hl := List.mem_cons.mp hl
          · apply Link.fits_ofChain hleaf hinner
            rw [map_leaves_portions]
            exact h.imp_right fun h => h inner List.mem_cons_self
          · exact ihRest (h.imp_right fun h p hp =>
              h p (List.mem_cons_of_mem inner (List.mem_append_right _ hp))) l hl

theorem leaves_flat (plan : Plan Λ) : plan.flat.leaves = plan.leaves := by
  unfold flat
  induction plan.leaves with
  | nil => rfl
  | cons s rest ih => exact congrArg (s :: ·) ih

/-- Each member of a flat chain is a leaf. -/
theorem capped_flat (plan : Plan Λ) : plan.flat.Capped := by
  have hflat : ∀ xs : List Λ, (xs.foldr single nil).kept = []
      ∧ (xs.foldr single nil).shape = xs.map ([·]) := by
    intro xs
    induction xs with
    | nil => exact ⟨rfl, rfl⟩
    | cons s rest ih => exact ⟨ih.1, congrArg ([s] :: ·) ih.2⟩
  obtain ⟨hkept, hshape⟩ := hflat plan.leaves
  intro p hp hlast
  rw [flat, hkept] at hp
  obtain rfl := List.mem_singleton.mp hp
  rw [hshape, List.getLast?_map] at hlast
  obtain ⟨s, -, hs⟩ := Option.map_eq_some_iff.mp hlast
  cases hs

/-- What calls of a chain come to is what the row of its leaves answers. -/
theorem run_eq (hleaf : leaf.Steady) (plan : Plan Λ) (h : leaf.Lasting ∨ plan.Capped)
    (calls : List Pull) :
    plan.run leaf calls
      = ((replies (fun call r => Row.respond leaf r call) (fun _ => ()) calls
          ⟨plan.leaves, .nobody⟩).map Prod.fst).map some := by
  have hcapped : leaf.Lasting ∨ Splice.Capped ((plan.portions leaf).flatten.map Link.leaves) := by
    rw [map_leaves_portions]
    exact h.imp_right fun h => h plan List.mem_cons_self
  have hfits := fits_portions hleaf plan
    (h.imp_right fun h p hp => h p (List.mem_cons_of_mem plan hp))
  have htranscript := Link.transcript_ofChain hleaf hfits hcapped calls
  rw [show (Link.ofChain (plan.portions leaf) 0).leaves = plan.leaves from leaves_chained plan]
    at htranscript
  have hrun := congrArg (List.map (Option.map Prod.fst)) htranscript
  rw [List.map_map, List.map_map] at hrun
  rw [List.map_map]
  exact hrun

/-- **A chain that was put together from other chains, some of which were asked for more before,
answers every row of calls as the flat chain of all leaves does; and every call comes to
something.** -/
theorem nesting_unseen (hleaf : leaf.Steady) (plan : Plan Λ) (h : leaf.Lasting ∨ plan.Capped)
    (calls : List Pull) :
    plan.run leaf calls = plan.flat.run leaf calls ∧ none ∉ plan.run leaf calls := by
  have hrun := run_eq hleaf plan h calls
  constructor
  · rw [hrun, run_eq hleaf plan.flat (.inr plan.capped_flat) calls, leaves_flat]
  · rw [hrun, List.mem_map]
    rintro ⟨answer, -, hanswer⟩
    cases hanswer

end

end Plan

/-! ## §3. Plain sources as leaves. -/

namespace Peek

variable {self : Field τ (Peek α)} {taken : Field τ Nat} {steps : Nat → Except Failure α}

/-- A look-ahead that was asked holds an element, or has met the end. -/
theorem asked_cases (hself : self.Lawful) (hapart : self.Apart taken)
    (hsteps : ∀ k e, steps k = .error e → e.isEnd = true) (s : τ) :
    (∃ x s', hasNext self (Feed.pull steps taken) s = .value true s'
        ∧ (self.get s').ahead = some x)
      ∨ ∃ s', hasNext self (Feed.pull steps taken) s = .value false s'
        ∧ (self.get s').ahead = none ∧ (self.get s').ended = true := by
  cases hahead : (self.get s).ahead with
  | some x => exact .inl ⟨x, s, hasNext_of_held hahead, hahead⟩
  | none =>
      cases hended : (self.get s).ended with
      | true => exact .inr ⟨s, hasNext_of_ended hahead hended, hahead, hended⟩
      | false =>
          have hpull : Feed.pull steps taken s
              = .of (steps (taken.get s)) (taken.set (taken.get s + 1) s) := Feed.pull_apply s
          cases hstep : steps (taken.get s) with
          | ok x =>
              rw [hstep] at hpull
              exact .inl ⟨x, _, hasNext_of_value hahead hended hpull, by rw [hself.get_set]⟩
          | error e =>
              rw [hstep] at hpull
              refine .inr ⟨_, hasNext_of_end hahead hended hpull (hsteps _ e hstep), ?_, ?_⟩
              · rw [hself.get_set]
                exact (congrArg ahead (hapart.get_left _ _)).trans hahead
              · rw [hself.get_set]

theorem steady (hself : self.Lawful) (hapart : self.Apart taken)
    (hsteps : ∀ k e, steps k = .error e → e.isEnd = true) (owner : String) :
    (Peek.forward owner self (Feed.pull steps taken)).Steady where
  hasNext s := by
    obtain ⟨x, s', hask, hahead⟩ | ⟨s', hask, hahead, hended⟩ :=
      asked_cases hself hapart hsteps s
    · exact ⟨true, s', hask, hasNext_of_held hahead⟩
    · exact ⟨false, s', hask, hasNext_of_ended hahead hended⟩
  next s := by
    obtain ⟨x, s', hask, hahead⟩ | ⟨s', hask, -, -⟩ := asked_cases hself hapart hsteps s
    · refine ⟨.ok x, self.set { self.get s' with ahead := none } s', ?_⟩
      show Peek.next self _ s = _
      simp only [Peek.next, Act.bind_apply, hask, if_true, Field.read_apply, hahead,
        Field.modify_apply]
      rfl
    · exact ⟨.error .ended, s', next_of_exhausted hask⟩
  remove s := ⟨.error (.unsupported owner .remove), s, rfl⟩

/-- The end of a plain source is final. -/
theorem lasting (hself : self.Lawful) (hapart : self.Apart taken)
    (hsteps : ∀ k e, steps k = .error e → e.isEnd = true) (owner : String) :
    (Peek.forward owner self (Feed.pull steps taken)).Lasting := by
  intro s hspent
  have hend : (self.get s).ahead = none ∧ (self.get s).ended = true := by
    induction hspent with
    | @denied s s' hask =>
        obtain ⟨x, s₁, hask', -⟩ | ⟨s₁, hask', hend⟩ := asked_cases hself hapart hsteps s
        · exact nomatch hask.symm.trans hask'
        · have hsame : Outcome.of (.ok false) s' = .of (.ok false) s₁ := hask.symm.trans hask'
          obtain ⟨-, rfl⟩ := Outcome.of_inj hsame
          exact hend
    | @removed s s' r _ hremove ih =>
        obtain ⟨-, rfl⟩ := Outcome.of_inj (r := .error _) hremove
        exact ih
  have hask : (Peek.forward owner self (Feed.pull steps taken)).hasNext s = .value false s :=
    hasNext_of_ended hend.1 hend.2
  exact ⟨hask, next_of_exhausted hask⟩

end Peek

theorem Feed.ofList_end (xs : List α) (k : Nat) (e : Failure) (h : Feed.ofList xs k = .error e) :
    e.isEnd = true := by
  unfold Feed.ofList at h
  split at h
  · cases h
  · cases h
    rfl

namespace Plan

/-- The steps of two plain sources, one after the other, each with its end. -/
def spools (k : Nat) : Except Failure Nat :=
  match [some 1, none, some 2, some 3, none][k]? with
  | some (some x) => .ok x
  | _ => .error .ended

theorem spools_end (k : Nat) (e : Failure) (h : spools k = .error e) : e.isEnd = true := by
  unfold spools at h
  split at h
  · cases h
  · cases h
    rfl

/-- Two leaves with several chains around them, the last of which is kept without leaves. -/
def tangle : Plan (Peek Nat × Nat) :=
  nested 2 (nested 0 (single ({}, 0) nil) (nested 1 nil nil))
    (nested 0 (single ({}, 2) nil) (nested 1 nil nil))

theorem tangle_unseen :
    (Feed.source spools).Steady ∧ (Feed.source spools).Lasting
      ∧ tangle.run (Feed.source spools) [.next, .remove, .hasNext, .next, .next, .hasNext, .next]
        = [some (.ok (.element 1)), some (.error (.unsupported "IteratorWrapper" .remove)),
          some (.ok (.truth true)), some (.ok (.element 2)), some (.ok (.element 3)),
          some (.ok (.truth false)), some (.error .ended)]
      ∧ tangle.run (Feed.source spools) [.next, .remove, .hasNext, .next, .next, .hasNext, .next]
        = tangle.flat.run (Feed.source spools)
          [.next, .remove, .hasNext, .next, .next, .hasNext, .next] := by
  have hsteady : (Feed.source spools).Steady :=
    Peek.steady Field.lawful_left ⟨fun _ _ => rfl, fun _ _ => rfl⟩ spools_end _
  have hlasting : (Feed.source spools).Lasting :=
    Peek.lasting Field.lawful_left ⟨fun _ _ => rfl, fun _ _ => rfl⟩ spools_end _
  exact ⟨hsteady, hlasting, by decide +kernel, (nesting_unseen hsteady tangle (.inl hlasting) _).1⟩

/-! ## §4. Where the nesting shows. -/

/-- A leaf that always denies, and gives an element all the same. -/
def stubborn : Forward Nat Nat where
  hasNext := pure false
  next := Act.reading id
  remove := Act.fail (.notMoved .remove false)

/-- What two look-aheads over one plain source share, and the chains over them. -/
abbrev Twins : Type := (Nat × Peek Nat × Peek Nat) × (Chain Unit × Chain Bool)

/-- The look-aheads. -/
def twin (second : Bool) : Forward Twins Nat :=
  Peek.forward "IteratorWrapper"
    (Field.left.comp (Field.right.comp (if second then .right else .left)))
    (Feed.pull (Feed.ofList [1, 2, 3]) (Field.left.comp .left))

/-- The chain of the second one. -/
def innerChain : Forward Twins Nat :=
  Chain.forward (Field.right.comp .left) (fun _ => twin true) fun _ => pure ()

/-- The chain of the first one and of something else. -/
def outerChain (other : Forward Twins Nat) : Forward Twins Nat :=
  Chain.forward (Field.right.comp .right) (fun second => if second then other else twin false)
    fun _ => pure ()

def Twins.new : Twins := ((0, {}, {}), { members := [()] }, { members := [false, true] })

/-- A chain asks a leaf that has denied again, unless it has gone on to a chain without leaves.
And of two look-aheads over one source the second takes the first element if its own chain is asked
before. -/
theorem nesting_seen :
    (stubborn.Steady
        ∧ (single 7 (nested 1 nil nil)).run stubborn [.next] = [some (.error .ended)]
        ∧ (single 7 (nested 1 nil nil)).flat.run stubborn [.next] = [some (.ok (.element 7))])
      ∧ (∀ second, (twin second).Steady)
      ∧ (transcript (Pull.ask (outerChain innerChain)) [.next, .next, .next]
            (innerChain.hasNext.leaves Twins.new)).map (Outcome.seen fun _ => ())
          = [some (.ok (.element 2), ()), some (.ok (.element 3), ()), some (.ok (.element 1), ())]
      ∧ (transcript (Pull.ask (outerChain (twin true))) [.next, .next, .next] Twins.new).map
            (Outcome.seen fun _ => ())
          = [some (.ok (.element 1), ()), some (.ok (.element 2), ()),
            some (.ok (.element 3), ())] := by
  refine ⟨⟨⟨fun s => ⟨false, s, rfl, rfl⟩, fun s => ⟨.ok s, s, rfl⟩, fun s => ⟨.error _, s, rfl⟩⟩,
    rfl, rfl⟩, fun second => ?_, rfl, rfl⟩
  cases second <;> exact Peek.steady ⟨fun _ _ => rfl, fun _ => rfl, fun _ _ _ => rfl⟩
    ⟨fun _ _ => rfl, fun _ _ => rfl⟩ (Feed.ofList_end _) _

end Plan

end Cursors
