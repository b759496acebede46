/-
  Cursors.Proofs.Composite.Syntax
  ───────────────────────────────
  **COMPOSITES OVER A SHARED STATE.**

  A composite is a pipeline whose parts work on one state, which they may
  share with containers and with each other.  It consists of sources that
  are given, and of combinators; a combinator says which part of the state
  is its own and what it calls.  Functions of the user are hooks: what a
  hook fails with goes through a guard.

  How far a composite can be asked, forward only or in both directions, is
  part of its type.  Asked for anything else it has no such operation.
-/
import Mathlib.Data.List.FinRange
import Cursors.Combinator.Buffer
import Cursors.Combinator.Chain
import Cursors.Combinator.Flatten
import Cursors.Combinator.Guard
import Cursors.Combinator.ListFilter
import Cursors.Combinator.Merge
import Cursors.Combinator.Transform
import Cursors.Primitive.ReadOnly
import Cursors.Proofs.Gesture
import Cursors.Proofs.Guard
import Cursors.Proofs.Tandem.Coupling

namespace Cursors

variable {σ α : Type}

/-! ## §1. Hooks. -/

/-- A function of the user, and the report on an element that it fails on. -/
structure Hook (σ α : Type) where
  run : α → Act σ α
  report : σ → α → Except Failure String

namespace Hook

/-- The guard under which the function is called. -/
def guard (hook : Hook σ α) (mode : Mode) : Guard σ α where
  mode _ := mode
  report := hook.report

/-- Call the function on an element. -/
def ask (hook : Hook σ α) (mode : Mode) (x : α) : Act σ α := (hook.guard mode).call hook.run x

variable {hook : Hook σ α} {mode : Mode} {x : α} {s s' : σ}

theorem ask_of_value {y : α} (h : hook.run x s = .value y s') :
    hook.ask mode x s = .value y s' :=
  Guard.call_of_value h

theorem ask_of_failure {e : Failure} (h : hook.run x s = .failure e s') :
    hook.ask mode x s = .failure (Guard.raised mode (hook.report s') x e) s' := by
  unfold ask Guard.raised
  by_cases hwraps : Guard.wraps mode e = true
  · simp only [Guard.call, h, guard, hwraps, if_true]
    cases hook.report s' x <;> rfl
  · simp only [Guard.call, h, guard, hwraps]
    rfl

theorem ask_of_unfinished (h : hook.run x s = .unfinished) :
    hook.ask mode x s = .unfinished := by
  simp only [ask, Guard.call, h]

end Hook

/-! ## §2. How far a source can be asked. -/

/-- The directions in which a source can be asked. -/
inductive Reach where
  | forward
  | twoWay
  deriving Repr, DecidableEq

namespace Reach

/-- The sources of a reach. -/
def Source : Reach → Type → Type → Type
  | .forward, σ, α => Forward σ α
  | .twoWay, σ, α => TwoWay σ α

end Reach

/-- A forward source has no operations but its own. -/
def Forward.oneWay (source : Forward σ α) : TwoWay σ α where
  toForward := source
  hasPrevious := Act.fail (.refused .attribute)
  previous := Act.fail (.refused .attribute)
  nextIndex := Act.fail (.refused .attribute)
  previousIndex := Act.fail (.refused .attribute)
  set _ := Act.fail (.refused .attribute)
  add _ := Act.fail (.refused .attribute)

/-- All that can be asked of a source. -/
def Reach.door : {r : Reach} → r.Source σ α → TwoWay σ α
  | .forward, source => Forward.oneWay source
  | .twoWay, source => source

/-! ## §3. Composites. -/

/-- A pipeline over states `σ`. -/
inductive Composite (σ α : Type) : Reach → Type 1 where
  /-- A source of any kind, and what sends it back to its start. -/
  | given {r : Reach} (source : r.Source σ α) (reset : Act σ Unit) : Composite σ α r
  /-- A two-way part of which only the forward operations are used. -/
  | ahead (below : Composite σ α .twoWay) : Composite σ α .forward
  /-- A filter; `truth` tells whether a result of the predicate counts as true. -/
  | filter (self : Field σ (Filter α)) (predicate : Hook σ α) (truth : α → Act σ Bool)
      (below : Composite σ α .forward) : Composite σ α .forward
  /-- A filter in both directions. -/
  | listFilter (self : Field σ (ListFilter α)) (predicate : Hook σ α) (truth : α → Act σ Bool)
      (below : Composite σ α .twoWay) : Composite σ α .twoWay
  /-- A transformation. -/
  | transform (function : Hook σ α) (below : Composite σ α .forward) : Composite σ α .forward
  /-- A flattening, with or without a classifier; `branch` says which of the branches a value is,
  and `single` makes one of a value that is none. -/
  | flatten {ι : Type} (owner : String) (self : Field σ (Flatten ι α))
      (classifier : Option (Hook σ α)) (branch : α → Act σ (Option ι)) (single : α → Act σ ι)
      (branches : ι → Composite σ α .forward) : Composite σ α .forward
  /-- A chain, and what it notes when it is used first. -/
  | chain {ι : Type} (self : Field σ (Chain ι)) (note : Nat → Act σ Unit)
      (members : ι → Composite σ α .forward) : Composite σ α .forward
  /-- A merge under an order of the user, which is called without a guard. -/
  | merge {n : Nat} (self : Field σ (Merge α)) (precedes : α → α → Act σ Bool)
      (children : Fin n → Composite σ α .forward) : Composite σ α .forward
  /-- A buffer; `strict` tells whether it refuses edits. -/
  | buffer (self : Field σ (Buffer α)) (strict : Act σ Bool) (below : Composite σ α .forward) :
      Composite σ α .twoWay
  /-- A read-only view. -/
  | readOnly (owner : String) (below : Composite σ α .forward) : Composite σ α .forward

namespace Composite

/-- Whether a predicate accepts an element. -/
def accepts (predicate : Hook σ α) (truth : α → Act σ Bool) (mode : Mode) (x : α) : Act σ Bool := do
  truth (← predicate.ask mode x)

/-- What is examined in place of a value. -/
def classify (classifier : Option (Hook σ α)) (mode : Mode) (x : α) : Act σ α :=
  match classifier with
  | none => pure x
  | some hook => hook.ask mode x

/-- The composite as a source, with failures of its hooks reported according to the mode. -/
def source [Inhabited α] (mode : Mode) (fuel : Nat) :
    {r : Reach} → Composite σ α r → r.Source σ α
  | _, given source _ => source
  | _, ahead below => TwoWay.toForward (below.source mode fuel)
  | _, filter self predicate truth below =>
      Filter.forward fuel self (below.source mode fuel) (accepts predicate truth mode)
  | _, listFilter self predicate truth below =>
      ListFilter.twoWay fuel self (below.source mode fuel) (accepts predicate truth mode)
  | _, transform function below => Forward.transform (below.source mode fuel) (function.ask mode)
  | _, flatten owner self classifier branch single branches =>
      Flatten.forward owner fuel self
        { classify := classify classifier mode, branch, single,
          elements := fun i => (branches i).source mode fuel }
  | _, chain self note members =>
      Chain.forward self (fun i => (members i).source mode fuel) note
  | _, merge self precedes children =>
      Merge.forward self ((List.finRange _).map fun i => (children i).source mode fuel) precedes
  | _, buffer self strict below => Buffer.twoWay strict self (below.source mode fuel)
  | _, readOnly owner below => Forward.readOnly owner (below.source mode fuel)

/-- Send a composite back to its start; most kinds have no such operation. -/
def reset : {r : Reach} → Composite σ α r → Act σ Unit
  | _, given _ reset => reset
  | _, buffer self _ _ => Buffer.reset self
  | _, _ => Act.fail (.refused .attribute)

/-- Make a gesture to a composite. -/
def ask [Inhabited α] {r : Reach} (p : Composite σ α r) (mode : Mode) (fuel : Nat)
    (g : Gesture α) : Act σ (Reply α) :=
  g.ask (Reach.door (p.source mode fuel)) p.reset

end Composite

/-! ## §4. Gestures in tandem. -/

variable {τ : Type} {c : Coupling σ τ}

/-- The two sources run in tandem, in all directions that they go. -/
def Reach.Tandem (c : Coupling σ τ) : {r : Reach} → r.Source σ α → r.Source τ α → Prop
  | .forward => Forward.Tandem c
  | .twoWay => TwoWay.Tandem c

theorem Forward.Tandem.oneWay {source : Forward σ α} {source' : Forward τ α}
    (h : Forward.Tandem c source source') : TwoWay.Tandem c source.oneWay source'.oneWay where
  toTandem := h
  hasPrevious := Act.tandem_fail _
  previous := Act.tandem_fail _
  nextIndex := Act.tandem_fail _
  previousIndex := Act.tandem_fail _
  set _ := Act.tandem_fail _
  add _ := Act.tandem_fail _

theorem Reach.Tandem.door {r : Reach} {source : r.Source σ α} {source' : r.Source τ α}
    (h : Reach.Tandem c source source') :
    TwoWay.Tandem c (Reach.door source) (Reach.door source') := by
  cases r with
  | forward => exact Forward.Tandem.oneWay h
  | twoWay => exact h

/-- Sources that run in tandem answer every gesture alike. -/
theorem TwoWay.Tandem.ask {source : TwoWay σ α} {source' : TwoWay τ α} {reset : Act σ Unit}
    {reset' : Act τ Unit} (h : TwoWay.Tandem c source source')
    (hreset : Act.Tandem c reset reset') (g : Gesture α) :
    Act.Tandem c (g.ask source reset) (g.ask source' reset') := by
  have hcall : ∀ call : Call α, Act.Tandem c (call.ask source) (call.ask source') := by
    intro call
    cases call with
    | next => exact h.next.bind fun x => Act.tandem_pure _
    | previous => exact h.previous.bind fun x => Act.tandem_pure _
    | hasNext => exact h.hasNext.bind fun b => Act.tandem_pure _
    | hasPrevious => exact h.hasPrevious.bind fun b => Act.tandem_pure _
    | add x => exact (h.add x).bind fun _ => Act.tandem_pure _
    | set x => exact (h.set x).bind fun _ => Act.tandem_pure _
    | remove => exact h.remove.bind fun _ => Act.tandem_pure _
  cases g with
  | call call => exact (hcall call).bind fun a => Act.tandem_pure _
  | nextIndex => exact h.nextIndex.bind fun n => Act.tandem_pure _
  | previousIndex => exact h.previousIndex.bind fun n => Act.tandem_pure _
  | reset => exact hreset.bind fun _ => Act.tandem_pure _

end Cursors
