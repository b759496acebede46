/-
  Cursors.Proofs.Lending.Refusal
  ──────────────────────────────
  **AN EDIT THAT IS REFUSED HAS CHANGED NOTHING.**

  A combinator checks what it can before it passes an edit on, and does its
  own bookkeeping only after the edit has succeeded below.  What it does
  then cannot fail, so that a failing edit leaves everything as it was
  (`Act.Atomic`), if it does so below.

  A cursor in a container is left out, since a container may refuse an edit
  halfway; below a read-only view, a buffer or a flattening there is nothing
  to be known about it (`Loan.cautious`).
-/
import Cursors.Proofs.Lending.Loan

namespace Cursors

variable {σ κ τ α β : Type}

/-! ## §1. Actions that leave no trace when they fail. -/

namespace Act

/-- The action looks at the state and leaves it as it is. -/
def Still (x : Act σ β) : Prop := ∀ s, x.After s fun _ s' => s' = s

/-- If the action fails, everything is as it was before. -/
def Atomic (x : Act σ β) : Prop := ∀ s, x.After s fun r s' => ∀ e, r = .error e → s' = s

/-- The action cannot fail. -/
def Certain (x : Act σ β) : Prop := ∀ s, ∃ b s', x s = .value b s'

variable {x : Act σ α} {f : α → Act σ β}

theorem still_pure (b : β) : (pure b : Act σ β).Still := fun _ => after_pure rfl

theorem still_fail (e : Failure) : (fail e : Act σ β).Still := fun _ => after_fail rfl

theorem still_reading (g : σ → β) : (reading g).Still := fun _ => rfl

theorem still_read (self : Field σ τ) : self.read.Still := still_reading self.get

theorem Still.bind (h : x.Still) (hf : ∀ a, (f a).Still) : (x >>= f).Still := by
  intro s
  refine (h s).bind ?_ ?_
  · rintro a s' rfl
    exact hf a s'
  · rintro e s' rfl
    rfl

theorem Still.atomic (h : x.Still) : x.Atomic := fun s => (h s).mono fun _ _ hsame _ _ => hsame

theorem atomic_fail (e : Failure) : (fail e : Act σ β).Atomic := (still_fail e).atomic

/-- To look at the state first makes no difference. -/
theorem Still.bind_atomic (h : x.Still) (hf : ∀ a, (f a).Atomic) : (x >>= f).Atomic := by
  intro s
  refine (h s).bind ?_ ?_
  · rintro a s' rfl
    exact hf a s'
  · rintro e s' rfl _ _
    rfl

theorem certain_modify (self : Field σ τ) (g : τ → τ) : (self.modify g).Certain :=
  fun _ => ⟨(), _, rfl⟩

theorem certain_write (self : Field σ τ) (t : τ) : (self.write t).Certain := fun _ => ⟨(), _, rfl⟩

theorem Certain.bind (h : x.Certain) (hf : ∀ a, (f a).Certain) : (x >>= f).Certain := by
  intro s
  obtain ⟨a, s', hx⟩ := h s
  obtain ⟨b, s'', hfa⟩ := hf a s'
  refine ⟨b, s'', ?_⟩
  rw [bind_apply, hx]
  exact hfa

theorem Certain.atomic (h : x.Certain) : x.Atomic := by
  intro s
  obtain ⟨a, s', hx⟩ := h s
  exact after_of_value hx nofun

/-- What follows an action may do as it likes, if it cannot fail. -/
theorem Atomic.bind_certain (h : x.Atomic) (hf : ∀ a, (f a).Certain) : (x >>= f).Atomic := by
  intro s
  refine (h s).bind ?_ ?_
  · intro a s' _
    obtain ⟨b, s'', hfa⟩ := hf a s'
    exact after_of_value hfa nofun
  · intro e s' he e' _
    exact he e rfl

/-- What is kept is looked at, and changed if nothing is against it. -/
theorem atomic_writeUnless (self : Field σ τ) (against : τ → Bool) (e : Failure)
    (change : τ → τ) :
    (self.read >>= fun here =>
      if against here = true then fail e else self.write (change here)).Atomic := by
  refine (still_read self).bind_atomic fun here => ?_
  split
  · exact atomic_fail e
  · exact (certain_write self (change here)).atomic

end Act

/-- An edit that the source does not make leaves no trace. -/
structure TwoWay.Cautious (source : TwoWay σ α) : Prop where
  remove : source.remove.Atomic
  set : ∀ x, (source.set x).Atomic
  add : ∀ x, (source.add x).Atomic

/-- A forward source can be asked for removals only. -/
theorem Forward.cautious_oneWay {source : Forward σ α} (h : source.remove.Atomic) :
    source.oneWay.Cautious :=
  ⟨h, fun _ => Act.atomic_fail _, fun _ => Act.atomic_fail _⟩

theorem TwoWay.cautious_readOnly (owner : String) (source : TwoWay σ α) :
    (source.readOnly owner).Cautious :=
  ⟨Act.atomic_fail _, fun _ => Act.atomic_fail _, fun _ => Act.atomic_fail _⟩

/-! ## §2. Sources without sources. -/

theorem Single.atomic_remove (owner : String) (removable : σ → Bool) (self : Field σ (Single α)) :
    (Single.remove owner (Act.reading removable) self).Atomic := by
  refine (Act.still_reading removable).bind_atomic fun allowed => ?_
  cases allowed with
  | false => exact Act.atomic_fail _
  | true => exact Act.atomic_writeUnless self _ _ _

theorem ListSingle.cautious (owner : String) (self : Field σ (ListSingle α)) :
    (ListSingle.twoWay owner self).Cautious where
  remove := Act.atomic_writeUnless self _ _ _
  set _ := Act.atomic_writeUnless self _ _ _
  add _ := Act.atomic_fail _

/-! ## §3. Combinators. -/

theorem Filter.atomic_remove (self : Field σ (Filter α)) {source : Forward σ α}
    (h : source.remove.Atomic) : (Filter.remove self source).Atomic := by
  refine (Act.still_read self).bind_atomic fun here => ?_
  split
  · exact Act.atomic_fail _
  · exact h

namespace ListFilter

variable (self : Field σ (ListFilter α)) {source : TwoWay σ α}

theorem still_checkGap (edit : Edit) : (checkGap self edit).Still := by
  refine (Act.still_read self).bind fun here => ?_
  split
  · exact Act.still_fail _
  · exact Act.still_pure ()

theorem cautious (fuel : Nat) (accepts : α → Bool) (h : source.Cautious) :
    (twoWay fuel self source fun x => pure (accepts x)).Cautious where
  remove := by
    refine (still_checkGap self .remove).bind_atomic fun _ => ?_
    refine (Act.still_read self).bind_atomic fun here => ?_
    cases here.moved with
    | none => exact Act.atomic_fail _
    | some d => exact h.remove.bind_certain fun _ => Act.certain_modify self _
  set x := (still_checkGap self .set).bind_atomic fun _ => h.set x
  add x := by
    -- The element is in the source by the time the predicate is called, which cannot fail.
    refine (still_checkGap self .add).bind_atomic fun _ => (h.add x).bind_certain fun _ => ?_
    have hmark := Act.certain_modify self fun s => { s with moved := none }
    show (if accepts x = true then _ else _ : Act σ Unit).Certain
    split
    · exact (Act.certain_modify self _).bind fun _ => hmark
    · exact hmark

end ListFilter

theorem Chain.atomic_remove {ι : Type} (self : Field σ (Chain ι)) {member : ι → Forward σ α}
    (h : ∀ i, (member i).remove.Atomic) : (Chain.remove self member).Atomic := by
  refine (Act.still_read self).bind_atomic fun here => ?_
  cases here.lastUsed with
  | none => exact Act.atomic_fail _
  | some m => exact (h m).bind_certain fun _ => Act.certain_modify self _

theorem Merge.atomic_remove (self : Field σ (Merge α)) {sources : List (Forward σ α)}
    (h : ∀ source ∈ sources, source.remove.Atomic) : (Merge.remove self sources).Atomic := by
  refine (Act.still_read self).bind_atomic fun here => ?_
  split
  · exact Act.atomic_fail _
  · cases hlast : here.last.bind (sources[·]?) with
    | none => exact Act.atomic_fail _
    | some source =>
        obtain ⟨i, -, hi⟩ := Option.bind_eq_some_iff.mp hlast
        have hremove := h source (List.mem_of_getElem? hi)
        exact hremove.bind_certain fun _ => Act.certain_modify self _

namespace Buffer

variable (self : Field σ (Buffer α)) (strict : σ → Bool)

theorem still_checkMutable (edit : Edit) :
    (checkMutable (Act.reading strict) edit).Still := by
  refine (Act.still_reading strict).bind fun refused => ?_
  cases refused with
  | true => exact Act.still_fail _
  | false => exact Act.still_pure ()

theorem still_lastCrossed (edit : Edit) : (lastCrossed self edit).Still := by
  refine (Act.still_read self).bind fun here => ?_
  cases here.last with
  | none => exact Act.still_fail _
  | some i => exact Act.still_pure i

theorem cautious (source : Forward σ α) :
    (twoWay (Act.reading strict) self source).Cautious where
  remove := (still_checkMutable strict .remove).bind_atomic fun _ =>
    (still_lastCrossed self .remove).bind_atomic fun _ => (Act.certain_modify self _).atomic
  set _ := (still_checkMutable strict .set).bind_atomic fun _ =>
    (still_lastCrossed self .set).bind_atomic fun _ => (Act.certain_modify self _).atomic
  add _ := (still_checkMutable strict .add).bind_atomic fun _ =>
    (Act.certain_modify self _).atomic

end Buffer

/-! ## §4. Loans. -/

namespace Loan

variable {contents : σ → κ} [Inhabited α]

/-- An edit of a protected loan that fails has changed nothing. -/
theorem cautious (fuel : Nat) {r : Reach} (p : Loan contents α r) (h : p.Protected) :
    (Reach.door (p.source fuel)).Cautious := by
  induction p with
  | cursor self items => exact absurd h id
  | listWindow owner self items => exact absurd h id
  | window owner self items => exact Forward.cautious_oneWay (Act.atomic_fail _)
  | peek owner self pull => exact Forward.cautious_oneWay (Act.atomic_fail _)
  | empty => exact Forward.cautious_oneWay (Act.atomic_fail _)
  | single owner removable self =>
      exact Forward.cautious_oneWay (Single.atomic_remove owner removable self.toField)
  | listSingle owner self => exact ListSingle.cautious owner self.toField
  | ahead below ih => exact Forward.cautious_oneWay (ih h).remove
  | filter self accepts below ih =>
      exact Forward.cautious_oneWay (Filter.atomic_remove self.toField (ih h).remove)
  | listFilter self accepts below ih => exact ListFilter.cautious self.toField fuel accepts (ih h)
  | transform function below ih => exact Forward.cautious_oneWay (ih h).remove
  | flatten owner self classify branch lone branches ih =>
      exact Forward.cautious_oneWay (Act.atomic_fail _)
  | chain self note members ih =>
      exact Forward.cautious_oneWay
        (Chain.atomic_remove self.toField fun i => (ih i (h i)).remove)
  | merge self precedes children ih =>
      refine Forward.cautious_oneWay (Merge.atomic_remove self.toField ?_)
      intro source hsource
      obtain ⟨i, -, rfl⟩ := List.mem_map.mp hsource
      exact (ih i (h i)).remove
  | buffer self strict below ih =>
      exact Buffer.cautious self.toField strict (below.source fuel)
  | readOnly owner below ih => exact Forward.cautious_oneWay (Act.atomic_fail _)
  | listReadOnly owner below ih => exact TwoWay.cautious_readOnly owner (below.source fuel)

end Loan

end Cursors
