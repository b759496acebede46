/-
  Cursors.Proofs.Flatten.Orchard
  ──────────────────────────────
  **VALUES THAT NEST.**

  An orchard is a state in which a flattening can be carried out: there are
  values, a pure classifier, and iterators that the classifier makes up.
  `Holds` keeps track of what every branch has still to deliver, of the
  values that were classified, and of the branches that were opened; a
  branch is never opened twice.
-/
import Cursors.Combinator.Flatten
import Cursors.Proofs.Flatten.Forest
import Cursors.Proofs.Guard
import Cursors.Proofs.Supply

namespace Cursors

variable {σ ι α : Type}

/-! ## §1. Orchards. -/

/-- The values classified so far, and the branches opened so far. -/
structure Record (ι α : Type) where
  asked : List α := []
  opened : List ι := []

/-- One more value was classified. -/
def Record.note (r : Record ι α) (v : α) : Record ι α := { r with asked := r.asked ++ [v] }

/-- A state with values that nest.  `Holds r s t left` says that the flattening is in the state
`t`, that each branch `i` has `left i` still to deliver, and that `r` happened so far. -/
structure Orchard (σ ι α : Type) [DecidableEq ι] where
  kind : α → Kind α
  mode : Mode
  report : α → Except Failure String
  /-- The classifier. -/
  ask : α → Act σ α
  branch : α → Act σ (Option ι)
  single : α → Act σ ι
  self : Field σ (Flatten ι α)
  elements : ι → Forward σ α
  asked : σ → List α
  Holds : Record ι α → σ → Flatten ι α → (ι → List α) → Prop
  /-- The value is not an iterator. -/
  Plain : α → Prop
  /-- The value is an iterator over the given values that nobody has used. -/
  Fresh : σ → α → List α → Prop
  asked_eq : ∀ {r : Record ι α} {s : σ} {t : Flatten ι α} {left : ι → List α},
    Holds r s t left → asked s = r.asked
  self_get : ∀ {r : Record ι α} {s : σ} {t : Flatten ι α} {left : ι → List α},
    Holds r s t left → self.get s = t
  self_set : ∀ {r : Record ι α} {s : σ} {t : Flatten ι α} {left : ι → List α},
    Holds r s t left → ∀ t', Holds r (self.set t' s) t' left
  fresh_set : ∀ {s : σ} {x : α} {xs : List α}, Fresh s x xs → ∀ t, Fresh (self.set t s) x xs
  gives : ∀ {r : Record ι α} {i : ι}, i ∈ r.opened → ∀ t left,
    Gives (elements i) fun s xs => Holds r s t (Function.update left i xs)
  branch_of_plain : ∀ {x : α}, Plain x → ∀ s, branch x s = .value none s
  branch_of_fresh : ∀ {r : Record ι α} {s : σ} {t : Flatten ι α} {left : ι → List α} {x : α}
    {xs : List α}, Holds r s t left → Fresh s x xs →
      ∃ i s', i ∉ r.opened ∧ branch x s = .value (some i) s'
        ∧ Holds { r with opened := i :: r.opened } s' t (Function.update left i xs)
  single_of_plain : ∀ {r : Record ι α} {s : σ} {t : Flatten ι α} {left : ι → List α} {x : α},
    Holds r s t left → r.opened = [] → Plain x →
      ∃ i s', single x s = .value i s'
        ∧ Holds { r with opened := [i] } s' t (Function.update left i [x])
  ask_of_leaf : ∀ {r : Record ι α} {s : σ} {t : Flatten ι α} {left : ι → List α} {v x : α},
    Holds r s t left → kind v = .leaf x →
      Plain x ∧ ∃ s', ask v s = .value x s' ∧ Holds (r.note v) s' t left
  ask_of_branch : ∀ {r : Record ι α} {s : σ} {t : Flatten ι α} {left : ι → List α} {v : α}
    {xs : List α}, Holds r s t left → kind v = .branch xs →
      ∃ y s', ask v s = .value y s' ∧ Holds (r.note v) s' t left
        ∧ Fresh s' y xs
  ask_of_fails : ∀ {r : Record ι α} {s : σ} {t : Flatten ι α} {left : ι → List α} {v : α}
    {e : Failure}, Holds r s t left → kind v = .fails e →
      ∃ s', ask v s = .failure e s' ∧ Holds (r.note v) s' t left

namespace Orchard

variable [DecidableEq ι] (o : Orchard σ ι α)

/-- How the values nest for the flattening: the classifier is called under guard. -/
def nesting : Nesting σ ι α where
  classify := (Guard.steady o.mode o.report).call o.ask
  branch := o.branch
  single := o.single
  elements := o.elements

/-- The flattening as a source. -/
def source (owner : String) (fuel : Nat) : Forward σ α :=
  Flatten.forward owner fuel o.self o.nesting

/-- How a failure of the classifier is reported. -/
def raised : α → Failure → Failure := Guard.raised o.mode o.report

end Orchard

end Cursors
