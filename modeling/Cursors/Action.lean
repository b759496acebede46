/-
  Cursors.Action
  ──────────────
  **ACTIONS ON A STATE.**

  Iterators act on a state that they share with their sources, with the
  containers below them and with the functions that they call.  An action
  takes the state and answers, fails or runs out of fuel.  What it did to
  the state before it failed stays done, so that an interrupted operation
  can be described exactly.

  Everything is generic in the state `σ`.  An operation sees its own part
  of the state through a `Field`, its container through a `Sequence` and
  its sources through `Forward` and `TwoWay`.
-/
import Cursors.Failure
import Cursors.Place

namespace Cursors

/-! ## §1. Outcomes and actions. -/

/-- What an action comes to. -/
inductive Outcome (σ α : Type) where
  /-- It answered. -/
  | value (answer : α) (state : σ)
  /-- It failed, and left this state behind. -/
  | failure (cause : Failure) (state : σ)
  /-- Its fuel did not suffice; nothing is known. -/
  | unfinished

/-- An action on states `σ` with answers `α`. -/
def Act (σ α : Type) : Type := σ → Outcome σ α

namespace Act

variable {σ α β : Type}

/-- Answer without touching the state. -/
protected def pure (a : α) : Act σ α := fun s => .value a s

/-- One action after the other; a failure skips the second. -/
protected def bind (x : Act σ α) (f : α → Act σ β) : Act σ β := fun s =>
  match x s with
  | .value a s' => f a s'
  | .failure e s' => .failure e s'
  | .unfinished => .unfinished

instance : Monad (Act σ) where
  pure := Act.pure
  bind := Act.bind

/-- Fail for the given cause. -/
def fail (e : Failure) : Act σ α := fun s => .failure e s

/-- Run out of fuel. -/
def unfinished : Act σ α := fun _ => .unfinished

/-- Answer a function of the state. -/
def reading (f : σ → α) : Act σ α := fun s => .value (f s) s

/-- Change the state. -/
def update (f : σ → σ) : Act σ Unit := fun s => .value () (f s)

/-- Turn the failures selected by `catches` into answers. -/
def attempt (catches : Failure → Bool) (x : Act σ α) : Act σ (Except Failure α) := fun s =>
  match x s with
  | .value a s' => .value (.ok a) s'
  | .failure e s' => if catches e then .value (.error e) s' else .failure e s'
  | .unfinished => .unfinished

/-- A part of a lazily computed answer: an end inside of it is a failure like any other. -/
def sealed (x : Act σ α) : Act σ α := fun s =>
  match x s with
  | .failure e s' => .failure (if e.isEnd then .endedInside e else e) s'
  | outcome => outcome

/-- Fail unless the result is there. -/
def ofExcept : Except Failure α → Act σ α
  | .ok a => Act.pure a
  | .error e => fail e

@[simp] theorem pure_apply (a : α) (s : σ) : (pure a : Act σ α) s = .value a s := rfl

@[simp] theorem fail_apply (e : Failure) (s : σ) : (fail e : Act σ α) s = .failure e s := rfl

@[simp] theorem reading_apply (f : σ → α) (s : σ) : reading f s = .value (f s) s := rfl

@[simp] theorem update_apply (f : σ → σ) (s : σ) : update f s = .value () (f s) := rfl

theorem bind_apply (x : Act σ α) (f : α → Act σ β) (s : σ) :
    (x >>= f) s = match x s with
      | .value a s' => f a s'
      | .failure e s' => .failure e s'
      | .unfinished => .unfinished := rfl

instance : LawfulMonad (Act σ) := LawfulMonad.mk' (Act σ)
  (fun x => by
    funext s
    show (match x s with | .value a s' => _ | .failure e s' => _ | .unfinished => _) = _
    cases x s <;> rfl)
  (fun _ _ => rfl)
  (fun x f g => by
    funext s
    simp only [bind_apply]
    cases x s <;> rfl)

end Act

/-! ## §2. Parts of the state. -/

/-- A part `τ` of the state `σ` that can be read and replaced. -/
structure Field (σ τ : Type) where
  get : σ → τ
  set : τ → σ → σ

namespace Field

variable {σ τ υ : Type}

/-- The present value of the part. -/
def read (part : Field σ τ) : Act σ τ := Act.reading part.get

/-- Replace the part. -/
def write (part : Field σ τ) (t : τ) : Act σ Unit := Act.update (part.set t)

/-- Change the part. -/
def modify (part : Field σ τ) (f : τ → τ) : Act σ Unit :=
  Act.update fun s => part.set (f (part.get s)) s

/-- A part of a part. -/
def comp (part : Field σ τ) (inner : Field τ υ) : Field σ υ where
  get s := inner.get (part.get s)
  set u s := part.set (inner.set u (part.get s)) s

/-- The whole state. -/
def whole : Field σ σ where
  get := id
  set := fun s _ => s

/-- The left half of a pair. -/
def left : Field (σ × τ) σ where
  get := Prod.fst
  set := fun a s => (a, s.2)

/-- The right half of a pair. -/
def right : Field (σ × τ) τ where
  get := Prod.snd
  set := fun b s => (s.1, b)

end Field

/-! ## §3. What iterators offer. -/

/-- A container whose elements have positions. -/
structure Sequence (σ α : Type) where
  length : Act σ Nat
  get : Place → Act σ α
  set : Place → α → Act σ Unit
  delete : Place → Act σ Unit
  insert : Place → α → Act σ Unit

/-- A source that is read forward, can be asked whether it has more, and may be able to
remove the element that it gave last. -/
structure Forward (σ α : Type) where
  hasNext : Act σ Bool
  next : Act σ α
  remove : Act σ Unit

/-- A source that is read in both directions and may be able to edit in place. -/
structure TwoWay (σ α : Type) extends Forward σ α where
  hasPrevious : Act σ Bool
  previous : Act σ α
  nextIndex : Act σ Int
  previousIndex : Act σ Int
  set : α → Act σ Unit
  add : α → Act σ Unit

/-! ## §4. A list in the state. -/

namespace Sequence

variable {σ α : Type}

/-- The container held as a list in a part of the state. -/
def ofList (part : Field σ (List α)) : Sequence σ α where
  length := Act.reading fun s => (part.get s).length
  get p := do
    let xs ← part.read
    match (Place.index? xs.length p.toInt).bind (xs[·]?) with
    | some x => pure x
    | none => Act.fail (.refused .index)
  set p x := do
    match Place.index? (← part.read).length p.toInt with
    | some i => part.modify (·.set i x)
    | none => Act.fail (.refused .index)
  delete p := do
    match Place.index? (← part.read).length p.toInt with
    | some i => part.modify (·.eraseIdx i)
    | none => Act.fail (.refused .index)
  insert p x := part.modify fun xs =>
    let i := Place.insertionPoint xs.length p.toInt
    xs.take i ++ x :: xs.drop i

end Sequence

end Cursors
