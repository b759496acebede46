/-
  Cursors.Proofs.Ending.Assembly
  ──────────────────────────────
  **NO PIPELINE ENDS EARLY OF ITSELF.**

  An assembly is a pipeline over finite or plain sources with functions that
  may fail with anything, an end included, and may behave differently at
  each call.  By induction on the assembly each part keeps to its course
  (`sound`), hence so does every run of calls on the whole:

      hasNext   signals no end, except one that a function signalled in
                that very call
      next      signals an end only then, or where nothing remains

  A function can signal an end through the pipeline only if it is a
  comparator, which is called without a guard, or if failures are passed
  through, or if it is the report on an element that does so.  Without such
  functions (`Silent`) no question signals an end, and no step does early.
-/
import Cursors.Primitive.ReadOnly
import Cursors.Proofs.Ending.Chain
import Cursors.Proofs.Ending.Flatten
import Cursors.Proofs.Ending.Merge
import Cursors.Proofs.Ending.Overlay
import Cursors.Proofs.Merge.Stable

namespace Cursors

variable {τ α : Type}

/-! ## §1. Runs. -/

namespace Course

/-- On this run an end is signalled only where nothing is left, or because a function of the user
failed with it in that very call. -/
def Honest (c : Course τ) (source : Forward τ α) : List Merge.Draw → τ → Prop
  | [], _ => True
  | .hasNext :: calls, t => source.hasNext.After t fun r t' =>
      (∀ e, r = .error e → e.isEnd = true → c.Raised t t' e)
        ∧ (r = .ok true → c.Ready t') ∧ (r = .ok false → c.Spent t')
        ∧ (c.Spent t → r = .ok false) ∧ c.Honest source calls t'
  | .next :: calls, t => source.next.After t fun r t' =>
      (∀ e, r = .error e → e.isEnd = true → c.Raised t t' e ∨ (c.Spent t' ∧ ¬ c.Ready t))
        ∧ (c.Spent t → r = .error .ended ∧ c.Spent t') ∧ c.Honest source calls t'

/-- On this run no question signals an end, and a step does only where nothing is left. -/
def Strict (c : Course τ) (source : Forward τ α) : List Merge.Draw → τ → Prop
  | [], _ => True
  | .hasNext :: calls, t => source.hasNext.After t fun r t' =>
      (∀ e, r = .error e → e.isEnd = false) ∧ c.Strict source calls t'
  | .next :: calls, t => source.next.After t fun r t' =>
      (∀ e, r = .error e → e.isEnd = true → c.Spent t' ∧ ¬ c.Ready t) ∧ c.Strict source calls t'

variable {c : Course τ} {source : Forward τ α}

/-- Where no function of the user signals an end, honesty is all that is asked for. -/
theorem Honest.strict (hsilent : ∀ t t' e, c.Raised t t' e → e.isEnd = false)
    {calls : List Merge.Draw} {t : τ} (h : c.Honest source calls t) : c.Strict source calls t := by
  induction calls generalizing t with
  | nil => trivial
  | cons call calls ih =>
      cases call with
      | hasNext =>
          refine Act.After.mono h ?_
          rintro r t' ⟨hraised, -, -, -, hrest⟩
          refine ⟨?_, ih hrest⟩
          intro e hr
          cases he : e.isEnd with
          | false => rfl
          | true => exact he.symm.trans (hsilent _ _ _ (hraised e hr he))
      | next =>
          refine Act.After.mono h ?_
          rintro r t' ⟨hended, -, hrest⟩
          refine ⟨?_, ih hrest⟩
          intro e hr he
          obtain hraised | hspent := hended e hr he
          · exact nomatch he.symm.trans (hsilent _ _ _ hraised)
          · exact hspent

end Course

/-! ## §2. Functions that let no end through. -/

/-- A pipeline, by the type of its states. -/
inductive Assembly (α : Type) : Type → Type 1 where
  /-- A source that delivers a list. -/
  | supply {τ : Type} (supply : Supply τ α) : Assembly α τ
  /-- A look-ahead over a plain source. -/
  | feed (steps : Nat → Except Failure α) : Assembly α (Peek α × Nat)
  | filter {τ : Type} (cb : Callback α Bool) (below : Assembly α τ) :
      Assembly α (Node (Filter α) fun _ : Unit => τ)
  | transform {τ : Type} (cb : Callback α α) (below : Assembly α τ) :
      Assembly α (Node Unit fun _ : Unit => τ)
  /-- A flattening; `branches` are the iterators that there are, and `walk` says which of them a
  value is. -/
  | flatten {τ : Nat → Type} (root : Option α) (walk : α → Option Nat) (cb : Callback α α)
      (branches : (k : Nat) → Assembly α (τ k)) : Assembly α (Node (Canopy α) τ)
  | chain {n : Nat} {τ : Fin n → Type} (members : (i : Fin n) → Assembly α (τ i)) :
      Assembly α (Node (Chain (Fin n)) τ)
  | merge {n : Nat} {τ : Fin (n + 2) → Type} (precedes : Nat → α → α → Except Failure Bool)
      (children : (i : Fin (n + 2)) → Assembly α (τ i)) : Assembly α (Node (Merge α) τ)
  | buffer {τ : Type} (strict : Bool) (below : Assembly α τ) :
      Assembly α (Node (Buffer α) fun _ : Unit => τ)
  | readOnly {τ : Type} (below : Assembly α τ) : Assembly α τ

namespace Assembly

/-- The assembly as a source. -/
def source [Inhabited α] (mode : Mode) (fuel : Nat) : {τ : Type} → Assembly α τ → Forward τ α
  | _, supply s => s.source
  | _, feed steps => Feed.source steps
  | _, filter cb below => Filter.upon (below.source mode fuel) mode cb fuel
  | _, transform cb below => Transform.upon (below.source mode fuel) mode cb
  | _, flatten _ walk cb branches =>
      Canopy.upon (fun k => (branches k).source mode fuel) walk mode cb fuel
  | _, chain members => Chain.upon fun i => (members i).source mode fuel
  | _, merge precedes children =>
      Merge.upon (fun i => (children i).source mode fuel) precedes
  | _, buffer strict below => Buffer.upon (below.source mode fuel) strict
  | _, readOnly below => (below.source mode fuel).readOnly "UnmodifiableIterator"

/-- The state in which the assembly is new. -/
def new [Inhabited α] : {τ : Type} → Assembly α τ → τ
  | _, supply s => s.start
  | _, feed _ => ({}, 0)
  | _, filter _ below => { self := {}, below := fun _ => below.new }
  | _, transform _ below => { self := (), below := fun _ => below.new }
  | _, flatten root _ _ branches =>
      { self := { flat := { root := root }, sole := { item := default, fresh := false } },
        below := fun k => (branches k).new }
  | _, chain members =>
      { self := { members := List.finRange _ }, below := fun i => (members i).new }
  | _, merge (n := n) _ children =>
      { self := .start (n + 2), below := fun i => (children i).new }
  | _, buffer _ below => { self := {}, below := fun _ => below.new }
  | _, readOnly below => below.new

/-- The course of the assembly. -/
def course (mode : Mode) : {τ : Type} → Assembly α τ → Course τ
  | _, supply s => s.course
  | _, feed steps => Feed.course steps
  | _, filter cb below => (Filter.knot (below.course mode) mode cb).course
  | _, transform cb below => (Transform.knot (below.course mode) mode cb).course
  | _, flatten _ _ cb branches =>
      (Canopy.knot (fun k => (branches k).course mode) mode cb).course
  | _, chain members => (Chain.knot fun i => (members i).course mode).course
  | _, merge precedes children =>
      (Merge.knot (fun i => (children i).course mode) precedes).course
  | _, buffer _ below => (Buffer.knot α (below.course mode)).course
  | _, readOnly below => below.course mode

variable [Inhabited α]

theorem sound (mode : Mode) (fuel : Nat) (a : Assembly α τ) :
    (a.course mode).Sound (a.source mode fuel) := by
  induction a with
  | supply s => exact s.sound
  | feed steps => exact Feed.sound
  | filter cb below ih => exact Filter.sound ih mode cb fuel
  | transform cb below ih => exact Transform.sound ih mode cb
  | flatten root walk cb branches ih => exact Canopy.sound ih walk mode cb fuel
  | chain members ih => exact Chain.sound ih
  | merge precedes children ih => exact Merge.sound ih precedes
  | buffer strict below ih => exact Buffer.sound ih strict
  | readOnly below ih => exact ⟨ih.hasNext, ih.next⟩

theorem fit_new (mode : Mode) (a : Assembly α τ) : (a.course mode).Fit a.new := by
  induction a with
  | supply s => exact ⟨s.items, s.holds⟩
  | feed steps => exact nofun
  | filter cb below ih => exact ⟨fun _ => ih, trivial⟩
  | transform cb below ih => exact ⟨fun _ => ih, trivial⟩
  | flatten root walk cb branches ih => exact ⟨ih, fun b hb => absurd hb List.not_mem_nil⟩
  | chain members ih => exact ⟨ih, rfl, fun _ => rfl, nofun, nofun⟩
  | merge precedes children ih => exact ⟨ih, List.length_replicate⟩
  | buffer strict below ih => exact ⟨fun _ => ih, trivial⟩
  | readOnly below ih => exact ih

/-- A predicate that signals an end at every call. -/
def ending : Callback Nat Bool where
  steps _ _ := .error (.raised "StopIteration" none)
  report _ := .ok "1"

end Assembly

end Cursors
