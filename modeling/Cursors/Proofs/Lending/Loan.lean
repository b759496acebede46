/-
  Cursors.Proofs.Lending.Loan
  ───────────────────────────
  **PIPELINES OVER CONTAINERS THAT ARE LENT TO THEM.**

  A loan is a pipeline over containers that belong to somebody else.  What
  the containers hold is told by `contents`; whatever an iterator keeps for
  itself lies apart from them (`Own`), and what it reads, or calls on its
  way, leaves them alone (`Readable`, `Harmless`).  Cursors and two-way
  windows are the only leaves that can edit a container.

  A loan is protected if on the way down to each of these leaves there is a
  read-only view, a buffer or a flattening (`Loan.Protected`).
-/
import Cursors.Combinator.Buffer
import Cursors.Combinator.Chain
import Cursors.Combinator.Flatten
import Cursors.Combinator.ListFilter
import Cursors.Combinator.Merge
import Cursors.Combinator.Transform
import Cursors.Primitive.Cursor
import Cursors.Primitive.Peek
import Cursors.Primitive.Single
import Cursors.Primitive.Window
import Cursors.Proofs.After
import Cursors.Proofs.Composite.Syntax

namespace Cursors

variable {σ κ τ α β : Type}

/-! ## §1. What leaves the containers alone. -/

/-- Whatever the action comes to, the containers hold what they held before. -/
def Act.Keeps (contents : σ → κ) (x : Act σ β) : Prop :=
  ∀ s, x.After s fun _ s' => contents s' = contents s

/-- A part of the state that no container lies in. -/
structure Own (contents : σ → κ) (τ : Type) extends Field σ τ where
  apart : ∀ t s, contents (set t s) = contents s

/-- An action that leaves the containers alone. -/
structure Harmless (contents : σ → κ) (β : Type) where
  run : Act σ β
  keeps : run.Keeps contents

/-- A container that is not changed by reading it. -/
structure Readable (contents : σ → κ) (α : Type) extends Sequence σ α where
  length_keeps : length.Keeps contents
  get_keeps : ∀ p, (get p).Keeps contents

/-- A list in the state. -/
def Readable.ofList (contents : σ → κ) (part : Field σ (List α)) : Readable contents α where
  toSequence := Sequence.ofList part
  length_keeps _ := rfl
  get_keeps p s := (Sequence.after_get_ofList part p s).mono fun _ _ hsame => congrArg contents hsame

/-! ## §2. Loans. -/

/-- A pipeline over containers that are not its own. -/
inductive Loan {σ κ : Type} (contents : σ → κ) (α : Type) : Reach → Type 1 where
  /-- A cursor, by which a container can be edited. -/
  | cursor (self : Own contents Cursor) (items : Readable contents α) : Loan contents α .twoWay
  /-- A two-way window, by which elements of a container can be replaced. -/
  | listWindow (owner : String) (self : Own contents ListWindow) (items : Readable contents α) :
      Loan contents α .twoWay
  | window (owner : String) (self : Own contents Window) (items : Readable contents α) :
      Loan contents α .forward
  /-- A look-ahead over a plain source. -/
  | peek (owner : String) (self : Own contents (Peek α)) (pull : Harmless contents α) :
      Loan contents α .forward
  | empty : Loan contents α .forward
  | single (owner : String) (removable : σ → Bool) (self : Own contents (Single α)) :
      Loan contents α .forward
  | listSingle (owner : String) (self : Own contents (ListSingle α)) : Loan contents α .twoWay
  /-- A two-way part of which only the forward operations are used. -/
  | ahead (below : Loan contents α .twoWay) : Loan contents α .forward
  | filter (self : Own contents (Filter α)) (accepts : α → Bool)
      (below : Loan contents α .forward) : Loan contents α .forward
  | listFilter (self : Own contents (ListFilter α)) (accepts : α → Bool)
      (below : Loan contents α .twoWay) : Loan contents α .twoWay
  | transform (function : α → α) (below : Loan contents α .forward) : Loan contents α .forward
  /-- A flattening; to classify a value, or to tell that it is a branch, may make a new branch. -/
  | flatten {ι : Type} (owner : String) (self : Own contents (Flatten ι α))
      (classify : α → Harmless contents α) (branch : α → Harmless contents (Option ι))
      (lone : α → Harmless contents ι) (branches : ι → Loan contents α .forward) :
      Loan contents α .forward
  /-- A chain, and what it notes when it is used first. -/
  | chain {ι : Type} (self : Own contents (Chain ι)) (note : Nat → Harmless contents Unit)
      (members : ι → Loan contents α .forward) : Loan contents α .forward
  | merge {n : Nat} (self : Own contents (Merge α)) (precedes : α → α → Bool)
      (children : Fin n → Loan contents α .forward) : Loan contents α .forward
  /-- A buffer; `strict` tells whether it refuses edits. -/
  | buffer (self : Own contents (Buffer α)) (strict : σ → Bool)
      (below : Loan contents α .forward) : Loan contents α .twoWay
  | readOnly (owner : String) (below : Loan contents α .forward) : Loan contents α .forward
  | listReadOnly (owner : String) (below : Loan contents α .twoWay) : Loan contents α .twoWay

namespace Loan

variable {contents : σ → κ}

/-- How the values of a flattening nest, given the sources of its branches. -/
def nesting {ι : Type} (classify : α → Harmless contents α)
    (branch : α → Harmless contents (Option ι)) (lone : α → Harmless contents ι)
    (elements : ι → Forward σ α) : Nesting σ ι α where
  classify x := (classify x).run
  branch x := (branch x).run
  single x := (lone x).run
  elements := elements

/-- The loan as a source. -/
def source [Inhabited α] (fuel : Nat) : {r : Reach} → Loan contents α r → r.Source σ α
  | _, cursor self items => Cursor.twoWay self.toField items.toSequence
  | _, listWindow owner self items => ListWindow.twoWay owner self.toField items.toSequence
  | _, window owner self items => Window.forward owner self.toField items.toSequence
  | _, peek owner self pull => Peek.forward owner self.toField pull.run
  | _, empty => Forward.empty
  | _, single owner removable self => Single.forward owner (Act.reading removable) self.toField
  | _, listSingle owner self => ListSingle.twoWay owner self.toField
  | _, ahead below => TwoWay.toForward (below.source fuel)
  | _, filter self accepts below =>
      Filter.forward fuel self.toField (below.source fuel) fun x => pure (accepts x)
  | _, listFilter self accepts below =>
      ListFilter.twoWay fuel self.toField (below.source fuel) fun x => pure (accepts x)
  | _, transform function below =>
      Forward.transform (below.source fuel) fun x => pure (function x)
  | _, flatten owner self classify branch lone branches =>
      Flatten.forward owner fuel self.toField
        (nesting classify branch lone fun i => (branches i).source fuel)
  | _, chain self note members =>
      Chain.forward self.toField (fun i => (members i).source fuel) fun n => (note n).run
  | _, merge self precedes children =>
      Merge.forward self.toField ((List.finRange _).map fun i => (children i).source fuel)
        fun x y => pure (precedes x y)
  | _, buffer self strict below =>
      Buffer.twoWay (Act.reading strict) self.toField (below.source fuel)
  | _, readOnly owner below => Forward.readOnly owner (below.source fuel)
  | _, listReadOnly owner below => TwoWay.readOnly owner (below.source fuel)

/-- Send a loan back to its start; most kinds have no such operation. -/
def reset : {r : Reach} → Loan contents α r → Act σ Unit
  | _, cursor self _ => Cursor.reset self.toField
  | _, listWindow _ self _ => ListWindow.reset self.toField
  | _, window _ self _ => Window.reset self.toField
  | _, empty => pure ()
  | _, single _ _ self => Single.reset self.toField
  | _, listSingle _ self => ListSingle.reset self.toField
  | _, buffer self _ _ => Buffer.reset self.toField
  | _, _ => Act.fail (.refused .attribute)

/-- Make a gesture to a loan. -/
def ask [Inhabited α] {r : Reach} (p : Loan contents α r) (fuel : Nat) (g : Gesture α) :
    Act σ (Reply α) :=
  g.ask (Reach.door (p.source fuel)) p.reset

/-- On every way down to a leaf that can edit a container there is a read-only view, a buffer or
a flattening. -/
def Protected : {r : Reach} → Loan contents α r → Prop
  | _, cursor .. | _, listWindow .. => False
  | _, window .. | _, peek .. | _, empty | _, single .. | _, listSingle .. => True
  | _, readOnly .. | _, listReadOnly .. | _, buffer .. | _, flatten .. => True
  | _, ahead below | _, filter _ _ below | _, transform _ below => below.Protected
  | _, listFilter _ _ below => below.Protected
  | _, chain _ _ members => ∀ i, (members i).Protected
  | _, merge _ _ children => ∀ i, (children i).Protected

end Loan

end Cursors
