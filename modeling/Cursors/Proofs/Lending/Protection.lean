/-
  Cursors.Proofs.Lending.Protection
  ─────────────────────────────────
  **WHAT IS LENT COMES BACK UNCHANGED.**

  An action leaves the containers alone just if it runs in tandem with
  itself under the coupling of equal states in which the containers hold a
  given content (`Coupling.keeping`).  So the rules for tandems apply:

      moves     leave the containers alone, whatever the pipeline
                (`Loan.tandem_view`)
      edits     do so as well, if the containers are protected
                (`Loan.tandem_source`)

  An edit that fails has changed nothing (`Act.Atomic`): a combinator checks
  what it can before it passes an edit on, and does its own bookkeeping only
  after the edit has succeeded below.  Both together hold along every run
  (`Loan.protected_unharmed`).
-/
import Cursors.Proofs.Composite.Mode
import Cursors.Proofs.Lending.Refusal
import Cursors.Proofs.Lending.View
import Cursors.Proofs.Tandem.Leaf

namespace Cursors

variable {σ κ τ α β : Type}

/-! ## §1. The containers, as a coupling. -/

/-- Two runs in the same state throughout, in which the containers hold `k`. -/
def Coupling.keeping (contents : σ → κ) (k : κ) : Coupling σ σ where
  Meet s t := s = t ∧ contents s = k
  Failed e s e' t := e = e' ∧ s = t ∧ contents s = k
  failed_of_meet h _ := ⟨rfl, h⟩

namespace Coupling

variable {contents : σ → κ} {k : κ}

theorem keeping_exact : (keeping contents k).Exact := fun h => h

theorem keeping_seals : (keeping contents k).Seals (keeping contents k) := by
  refine ⟨fun _ _ => Iff.rfl, ?_⟩
  rintro e s e' t ⟨rfl, hmeet⟩
  exact ⟨rfl, hmeet⟩

/-- An action runs in tandem with itself if it leaves the containers alone. -/
theorem tandem_of_keeps {x : Act σ β} (h : x.Keeps contents) :
    Act.Tandem (keeping contents k) x x := by
  rintro s _ ⟨rfl, hk⟩
  have hs := h s
  unfold Act.After at hs
  cases hx : x s with
  | value a s' =>
      rw [hx] at hs
      exact ⟨rfl, rfl, hs.trans hk⟩
  | failure e s' =>
      rw [hx] at hs
      exact ⟨rfl, rfl, hs.trans hk⟩
  | unfinished => trivial

/-- Reading a container leaves it alone. -/
theorem tandem_get (items : Readable contents α) (place : Place) :
    Act.Tandem (keeping contents k) (items.get place) (items.get place) :=
  tandem_of_keeps (items.get_keeps place)

/-- If an action runs in tandem with itself, whatever the containers hold, it leaves them alone. -/
theorem keeps_of_tandem {x : Act σ β} (h : ∀ k, Act.Tandem (keeping contents k) x x) :
    x.Keeps contents := by
  intro s
  unfold Act.After
  obtain ⟨a, s', t, hx, -, -, hs'⟩ | ⟨e, s', e', t, hx, -, -, -, hs'⟩ | ⟨hx, -⟩ :=
    (h (contents s) s s ⟨rfl, rfl⟩).split
  · rw [hx]
    exact hs'
  · rw [hx]
    exact hs'
  · rw [hx]
    trivial

theorem alike_own (k : κ) (self : Own contents τ) :
    Field.Alike (keeping contents k) self.toField self.toField where
  get_eq h := congrArg self.get h.1
  meet_set := by
    rintro s _ ⟨rfl, hk⟩ u
    exact ⟨rfl, (self.apart u s).trans hk⟩

theorem tandem_reading (f : σ → β) :
    Act.Tandem (keeping contents k) (Act.reading f) (Act.reading f) :=
  fun _ _ hmeet => ⟨congrArg f hmeet.1, hmeet⟩

end Coupling

open Coupling

/-! ## §2. Sources that leave the containers alone. -/

/-- The view of a source that refuses all edits. -/
def Reach.view (owner : String) : {r : Reach} → r.Source σ α → r.Source σ α
  | .forward, source => Forward.readOnly owner source
  | .twoWay, source => TwoWay.readOnly owner source

namespace Loan

variable {contents : σ → κ} {k : κ}

theorem tandem_nesting {ι : Type} (classify : α → Harmless contents α)
    (branch : α → Harmless contents (Option ι)) (lone : α → Harmless contents ι)
    {elements : ι → Forward σ α} {view : String}
    (h : ∀ i, Forward.Tandem (keeping contents k) ((elements i).readOnly view)
      ((elements i).readOnly view)) :
    Nesting.Tandem (keeping contents k) ((nesting classify branch lone elements).readOnly view)
      ((nesting classify branch lone elements).readOnly view) where
  classify x := tandem_of_keeps (classify x).keeps
  branch x := tandem_of_keeps (branch x).keeps
  single x := tandem_of_keeps (lone x).keeps
  elements := h

variable [Inhabited α]

/-- The moves of a loan leave the containers alone. -/
theorem tandem_view (view : String) (fuel : Nat) {r : Reach} (p : Loan contents α r) :
    Reach.Tandem (keeping contents k) (Reach.view view (p.source fuel))
      (Reach.view view (p.source fuel)) := by
  induction p with
  | cursor self items =>
      exact Cursor.tandem_readOnly (tandem_get items)
        (tandem_of_keeps items.length_keeps) (alike_own k self) view
  | listWindow owner self items =>
      exact ListWindow.tandem_readOnly (tandem_get items)
        (alike_own k self) owner view
  | window owner self items =>
      have hwindow := Window.tandem_forward (tandem_get items)
        (alike_own k self) owner
      exact hwindow.readOnly view
  | peek owner self pull =>
      have hpeek := Peek.tandem_forward keeping_exact (alike_own k self)
        (tandem_of_keeps pull.keeps) owner
      exact hpeek.readOnly view
  | empty => exact Forward.tandem_empty.readOnly view
  | single owner removable self =>
      have hsingle := Single.tandem_forward (alike_own k self) (tandem_reading removable) owner
      exact hsingle.readOnly view
  | listSingle owner self =>
      exact (ListSingle.tandem_twoWay (alike_own k self) owner).readOnly view
  | ahead below ih => exact TwoWay.Tandem.toTandem ih
  | filter self accepts below ih =>
      exact Filter.tandem_readOnly view ih (alike_own k self)
        (fun x => Act.tandem_pure (accepts x)) fuel
  | listFilter self accepts below ih =>
      exact ListFilter.tandem_readOnly view (alike_own k self) ih
        (fun x => Act.tandem_pure (accepts x)) fuel
  | transform function below ih =>
      exact Forward.tandem_readOnly_transform view ih fun x => Act.tandem_pure (function x)
  | flatten owner self classify branch lone branches ih =>
      have hflatten := Flatten.tandem_of_readOnly view (alike_own k self)
        (tandem_nesting classify branch lone ih) owner fuel
      exact hflatten.readOnly view
  | chain self note members ih =>
      exact Chain.tandem_readOnly view (alike_own k self) ih fun n =>
        tandem_of_keeps (note n).keeps
  | merge self precedes children ih =>
      exact Merge.tandem_readOnly view keeping_seals (alike_own k self) ih
        (fun x y => Act.tandem_pure (precedes x y)) _
  | buffer self strict below ih =>
      have hbuffer := Buffer.tandem_of_readOnly view ih (alike_own k self) (tandem_reading strict)
      exact hbuffer.readOnly view
  | readOnly owner below ih => exact Forward.Tandem.readOnly ih view
  | listReadOnly owner below ih => exact TwoWay.Tandem.readOnly ih view

/-- All operations of a protected loan leave the containers alone. -/
theorem tandem_source (fuel : Nat) {r : Reach} (p : Loan contents α r) (h : p.Protected) :
    Reach.Tandem (keeping contents k) (p.source fuel) (p.source fuel) := by
  induction p with
  | cursor self items => exact absurd h id
  | listWindow owner self items => exact absurd h id
  | window owner self items =>
      exact Window.tandem_forward (tandem_get items)
        (alike_own k self) owner
  | peek owner self pull =>
      exact Peek.tandem_forward keeping_exact (alike_own k self) (tandem_of_keeps pull.keeps) owner
  | empty => exact Forward.tandem_empty
  | single owner removable self =>
      exact Single.tandem_forward (alike_own k self) (tandem_reading removable) owner
  | listSingle owner self => exact ListSingle.tandem_twoWay (alike_own k self) owner
  | ahead below ih => exact TwoWay.Tandem.toTandem (ih h)
  | filter self accepts below ih =>
      exact Filter.tandem_forward (alike_own k self) (ih h)
        (fun x => Act.tandem_pure (accepts x)) fuel
  | listFilter self accepts below ih =>
      exact ListFilter.tandem_twoWay (alike_own k self) (ih h)
        (fun x => Act.tandem_pure (accepts x)) fuel
  | transform function below ih =>
      exact Forward.Tandem.transform (ih h) fun x => Act.tandem_pure (function x)
  | chain self note members ih =>
      exact Chain.tandem_forward (alike_own k self) (fun i => ih i (h i)) fun n =>
        tandem_of_keeps (note n).keeps
  | merge self precedes children ih =>
      exact Merge.tandem_forward keeping_seals (alike_own k self) (fun i => ih i (h i))
        (fun x y => Act.tandem_pure (precedes x y)) _
  -- Below these no edit is ever asked for, so that the moves below are all that counts.
  | flatten owner self classify branch lone branches ih =>
      exact Flatten.tandem_of_readOnly owner (alike_own k self)
        (tandem_nesting classify branch lone fun i => (branches i).tandem_view owner fuel) owner
        fuel
  | buffer self strict below ih =>
      exact Buffer.tandem_of_readOnly "" (below.tandem_view "" fuel) (alike_own k self)
        (tandem_reading strict)
  | readOnly owner below ih => exact below.tandem_view owner fuel
  | listReadOnly owner below ih => exact below.tandem_view owner fuel

omit [Inhabited α] in
theorem reset_keeps {r : Reach} (p : Loan contents α r) : p.reset.Keeps contents := by
  intro s
  cases p with
  | cursor self | listWindow _ self | window _ self | single _ _ self | listSingle _ self
  | buffer self => exact self.apart _ s
  | empty => exact Act.after_pure rfl
  | peek | ahead | filter | listFilter | transform | flatten | chain | merge | readOnly
  | listReadOnly => exact Act.after_fail rfl

/-- No gesture to a protected loan changes a container. -/
theorem ask_keeps {r : Reach} {p : Loan contents α r} (h : p.Protected) (fuel : Nat)
    (g : Gesture α) : (p.ask fuel g).Keeps contents := by
  apply keeps_of_tandem
  intro k
  exact (p.tandem_source fuel h).door.ask (tandem_of_keeps p.reset_keeps) g

end Loan

/-! ## §3. Runs. -/

/-- A cautious source makes an edit or leaves no trace. -/
theorem TwoWay.Cautious.ask {source : TwoWay σ α} (h : source.Cautious) (reset : Act σ Unit)
    {g : Gesture α} (hedit : g.edit?.isSome = true) : (g.ask source reset).Atomic := by
  have hcall : ∀ {call : Call α}, (call.ask source).Atomic →
      ((Gesture.call call).ask source reset).Atomic := by
    intro call hatomic
    exact hatomic.bind_certain fun a s => ⟨Reply.answer a, s, rfl⟩
  match g with
  | .call .remove => exact hcall (h.remove.bind_certain fun _ s => ⟨Answer.done, s, rfl⟩)
  | .call (.set x) => exact hcall ((h.set x).bind_certain fun _ s => ⟨Answer.done, s, rfl⟩)
  | .call (.add x) => exact hcall ((h.add x).bind_certain fun _ s => ⟨Answer.done, s, rfl⟩)

/-- Along the gestures the containers hold `k`, and an edit that fails changes nothing at all. -/
def Unharmed (contents : σ → κ) (ask : Gesture α → Act σ (Reply α)) (k : κ) :
    List (Gesture α) → σ → Prop
  | [], s => contents s = k
  | g :: gestures, s => contents s = k ∧ (ask g).After s fun r s' =>
      (∀ e, g.edit?.isSome = true → r = .error e → s' = s) ∧ Unharmed contents ask k gestures s'

theorem unharmed_of_steps {contents : σ → κ} {ask : Gesture α → Act σ (Reply α)}
    (hkeeps : ∀ g, (ask g).Keeps contents)
    (hatomic : ∀ g : Gesture α, g.edit?.isSome = true → (ask g).Atomic) {k : κ}
    (gestures : List (Gesture α)) {s : σ} (hs : contents s = k) :
    Unharmed contents ask k gestures s := by
  induction gestures generalizing s with
  | nil => exact hs
  | cons g gestures ih =>
      refine ⟨hs, ?_⟩
      have hsame : (ask g).After s fun r s' =>
          ∀ e, g.edit?.isSome = true → r = .error e → s' = s := by
        by_cases hedit : g.edit?.isSome = true
        · exact (hatomic g hedit s).mono fun r s' hfailed e _ hr => hfailed e hr
        · exact (hkeeps g s).mono fun r s' _ e hg _ => absurd hg hedit
      exact Act.After.and hsame ((hkeeps g s).mono fun r s' hkept => ih (hkept.trans hs))

/-- **Whatever is asked of a protected pipeline, in whatever order, all containers keep their
contents, and an edit that fails changes nothing at all: no element and no index that is given
later, and none of the failures.** -/
theorem Loan.protected_unharmed [Inhabited α] {contents : σ → κ} {r : Reach}
    (p : Loan contents α r) (h : p.Protected) (fuel : Nat) (gestures : List (Gesture α)) (s : σ) :
    Unharmed contents (p.ask fuel) (contents s) gestures s :=
  unharmed_of_steps (Loan.ask_keeps h fuel)
    (fun _ hedit => (p.cautious fuel h).ask p.reset hedit) gestures rfl

/-! ## §4. Two lists, lent to a filter. -/

/-- What the iterators of a pipeline over two lists keep for themselves. -/
structure Desk where
  cursor : Cursor := {}
  window : ListWindow
  buffer : Buffer Nat := {}
  chain : Chain Bool := { members := [false, true] }
  filter : Filter Nat := {}

/-- A part of what iterators keep for themselves, beside the containers. -/
def Own.beside (part : Field τ β) : Own (Prod.fst : κ × τ → κ) β where
  toField := Field.right.comp part
  apart _ _ := rfl

/-- The even ones of two lists, the first behind a view and the second behind a buffer. -/
def lentLists : Loan (Prod.fst : (List Nat × List Nat) × Desk → List Nat × List Nat) Nat .forward :=
  .filter (.beside ⟨Desk.filter, fun f d => { d with filter := f }⟩) (· % 2 == 0) <|
    .chain (.beside ⟨Desk.chain, fun c d => { d with chain := c }⟩)
      (fun _ => ⟨pure (), fun _ => rfl⟩) fun
        | false => .readOnly "UnmodifiableIterator" <| .ahead <|
            .cursor (.beside ⟨Desk.cursor, fun c d => { d with cursor := c }⟩)
              (.ofList _ (Field.left.comp .left))
        | true => .ahead <| .buffer (.beside ⟨Desk.buffer, fun b d => { d with buffer := b }⟩)
            (fun _ => false) <| .ahead <|
            .listWindow "ArrayListIterator"
              (.beside ⟨Desk.window, fun w d => { d with window := w }⟩)
              (.ofList _ (Field.left.comp .right))

/-- The two lists, before the first gesture. -/
def lentStart : (List Nat × List Nat) × Desk :=
  (([1, 2], [4, 5]), { window := ⟨.fresh (.plain 0) (.plain 2), none⟩ })

/-- A removal that the view refuses, one that only the buffer makes, and gestures that a filter
does not have. -/
theorem protected_unharmed_lentLists :
    lentLists.Protected
      ∧ Unharmed Prod.fst (lentLists.ask 9) ([1, 2], [4, 5])
        [.call .next, .call .remove, .call .next, .call .remove, .call (.set 7), .reset,
          .call .hasNext] lentStart := by
  have hprotected : lentLists.Protected := by
    intro i
    cases i with
    | false => trivial
    | true => trivial
  exact ⟨hprotected, Loan.protected_unharmed lentLists hprotected 9 _ lentStart⟩

/-- The first removal is refused, and the second takes an element from the buffer. -/
example : (transcript (lentLists.ask 9) [.call .next, .call .remove, .call .next, .call .remove]
      lentStart).map
        (fun
          | .value reply s => (Except.ok reply, s.1, s.2.buffer.kept)
          | .failure e s => (.error e, s.1, s.2.buffer.kept)
          | .unfinished => (.error .ended, ([], []), []))
    = [(.ok (.answer (.element 2)), ([1, 2], [4, 5]), []),
      (.error (.unsupported "UnmodifiableIterator" .remove), ([1, 2], [4, 5]), []),
      (.ok (.answer (.element 4)), ([1, 2], [4, 5]), [4]),
      (.ok (.answer .done), ([1, 2], [4, 5]), [])] := by
  rfl

end Cursors
