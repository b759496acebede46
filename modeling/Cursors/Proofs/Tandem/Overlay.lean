/-
  Cursors.Proofs.Tandem.Overlay
  ─────────────────────────────
  **WHAT LIES OVER ONE SOURCE RUNS IN TANDEM WITH IT.**

  A filter, a two-way filter, a transformation, a buffer and a read-only
  view over sources that run in tandem run in tandem themselves, if what they
  keep for themselves is alike and so are the functions that they call.  None
  of them looks at a failure that comes from below.
-/
import Cursors.Combinator.Buffer
import Cursors.Combinator.ListFilter
import Cursors.Combinator.Transform
import Cursors.Primitive.ReadOnly
import Cursors.Proofs.Tandem.Coupling

namespace Cursors

variable {σ τ α β : Type} {c : Coupling σ τ}

/-! ## §1. Filters. -/

namespace Filter

variable {more : Act σ Bool} {more' : Act τ Bool} {pull : Act σ α} {pull' : Act τ α}
  {accepts : α → Act σ Bool} {accepts' : α → Act τ Bool} {self : Field σ (Filter α)}
  {self' : Field τ (Filter α)} {source : Forward σ α} {source' : Forward τ α}

theorem tandem_search (hmore : Act.Tandem c more more') (hpull : Act.Tandem c pull pull')
    (haccepts : ∀ x, Act.Tandem c (accepts x) (accepts' x)) (fuel : Nat) :
    Act.Tandem c (search more pull accepts fuel) (search more' pull' accepts' fuel) := by
  induction fuel with
  | zero => exact Act.tandem_unfinished
  | succ fuel ih =>
      refine hmore.bind fun there => ?_
      cases there with
      | false => exact Act.tandem_pure none
      | true =>
          refine hpull.bind fun x => (haccepts x).bind fun accepted => ?_
          cases accepted with
          | true => exact Act.tandem_pure (some x)
          | false => exact ih

theorem tandem_forward (hself : Field.Alike c self self')
    (hsource : Forward.Tandem c source source')
    (haccepts : ∀ x, Act.Tandem c (accepts x) (accepts' x)) (fuel : Nat) :
    Forward.Tandem c (forward fuel self source accepts) (forward fuel self' source' accepts') where
  hasNext := by
    refine hself.read.bind fun here => ?_
    obtain ⟨_ | held⟩ := here
    · refine (tandem_search hsource.hasNext hsource.next haccepts fuel).bind fun found => ?_
      cases found with
      | none => exact Act.tandem_pure false
      | some x => exact (hself.write _).bind fun _ => Act.tandem_pure true
    · exact Act.tandem_pure true
  next := by
    refine hself.read.bind fun here => ?_
    obtain ⟨_ | held⟩ := here
    · refine (tandem_search hsource.hasNext hsource.next haccepts fuel).bind fun found => ?_
      cases found with
      | none => exact Act.tandem_fail .ended
      | some x => exact (hself.write _).bind fun _ => Act.tandem_pure x
    · exact (hself.write _).bind fun _ => Act.tandem_pure held
  remove := by
    refine hself.read.bind fun here => ?_
    obtain ⟨_ | held⟩ := here
    · exact hsource.remove
    · exact Act.tandem_fail _

end Filter

/-! ## §2. Filters in both directions. -/

namespace ListFilter

variable {self : Field σ (ListFilter α)} {self' : Field τ (ListFilter α)} {source : TwoWay σ α}
  {source' : TwoWay τ α} {accepts : α → Act σ Bool} {accepts' : α → Act τ Bool}

section

variable (hself : Field.Alike c self self') (hsource : TwoWay.Tandem c source source')
  (haccepts : ∀ x, Act.Tandem c (accepts x) (accepts' x)) (fuel : Nat)
include hself hsource haccepts

theorem tandem_seekNext :
    Act.Tandem c (seekNext fuel self source accepts) (seekNext fuel self' source' accepts') := by
  have hscan := Filter.tandem_search hsource.hasNext hsource.next haccepts fuel
  refine hself.read.bind fun here => ?_
  obtain ⟨ahead, _ | held, index, moved⟩ := here
  · exact hscan
  · refine (hself.modify _).bind fun _ => hscan.bind fun found => ?_
    cases found with
    | none => exact Act.tandem_pure none
    | some x => exact (hself.modify _).bind fun _ => hscan

theorem tandem_seekPrevious :
    Act.Tandem c (seekPrevious fuel self source accepts)
      (seekPrevious fuel self' source' accepts') := by
  have hscan := Filter.tandem_search hsource.hasPrevious hsource.previous haccepts fuel
  refine hself.read.bind fun here => ?_
  obtain ⟨_ | held, behind, index, moved⟩ := here
  · exact hscan
  · refine (hself.modify _).bind fun _ => hscan.bind fun found => ?_
    cases found with
    | none => exact Act.tandem_pure none
    | some x => exact (hself.modify _).bind fun _ => hscan

theorem tandem_hasNext :
    Act.Tandem c (hasNext fuel self source accepts) (hasNext fuel self' source' accepts') := by
  refine hself.read.bind fun here => ?_
  obtain ⟨_ | held, behind, index, moved⟩ := here
  · refine (tandem_seekNext hself hsource haccepts fuel).bind fun found => ?_
    cases found with
    | none => exact Act.tandem_pure false
    | some x => exact (hself.modify _).bind fun _ => Act.tandem_pure true
  · exact Act.tandem_pure true

theorem tandem_next :
    Act.Tandem c (next fuel self source accepts) (next fuel self' source' accepts') := by
  refine hself.read.bind fun here => ?_
  obtain ⟨_ | held, behind, index, moved⟩ := here
  · refine (tandem_seekNext hself hsource haccepts fuel).bind fun found => ?_
    cases found with
    | none => exact Act.tandem_fail .ended
    | some x => exact (hself.modify _).bind fun _ => Act.tandem_pure x
  · exact (hself.modify _).bind fun _ => Act.tandem_pure held

theorem tandem_hasPrevious :
    Act.Tandem c (hasPrevious fuel self source accepts)
      (hasPrevious fuel self' source' accepts') := by
  refine hself.read.bind fun here => ?_
  obtain ⟨ahead, _ | held, index, moved⟩ := here
  · refine (tandem_seekPrevious hself hsource haccepts fuel).bind fun found => ?_
    cases found with
    | none => exact Act.tandem_pure false
    | some x => exact (hself.modify _).bind fun _ => Act.tandem_pure true
  · exact Act.tandem_pure true

theorem tandem_previous :
    Act.Tandem c (previous fuel self source accepts) (previous fuel self' source' accepts') := by
  refine hself.read.bind fun here => ?_
  obtain ⟨ahead, _ | held, index, moved⟩ := here
  · refine (tandem_seekPrevious hself hsource haccepts fuel).bind fun found => ?_
    cases found with
    | none => exact Act.tandem_fail .ended
    | some x => exact (hself.modify _).bind fun _ => Act.tandem_pure x
  · exact (hself.modify _).bind fun _ => Act.tandem_pure held

end

theorem tandem_checkGap (hself : Field.Alike c self self') (edit : Edit) :
    Act.Tandem c (checkGap self edit) (checkGap self' edit) := by
  refine hself.read.bind fun here => ?_
  split
  · exact Act.tandem_fail _
  · exact Act.tandem_pure ()

theorem tandem_twoWay (hself : Field.Alike c self self') (hsource : TwoWay.Tandem c source source')
    (haccepts : ∀ x, Act.Tandem c (accepts x) (accepts' x)) (fuel : Nat) :
    TwoWay.Tandem c (twoWay fuel self source accepts) (twoWay fuel self' source' accepts') where
  hasNext := tandem_hasNext hself hsource haccepts fuel
  next := tandem_next hself hsource haccepts fuel
  hasPrevious := tandem_hasPrevious hself hsource haccepts fuel
  previous := tandem_previous hself hsource haccepts fuel
  nextIndex := hself.read.bind fun here => Act.tandem_pure here.index
  previousIndex := (hself.read.bind fun here => Act.tandem_pure here.index).bind
    fun index => Act.tandem_pure (index - 1)
  remove := by
    refine (tandem_checkGap hself .remove).bind fun _ => hself.read.bind fun here => ?_
    obtain ⟨ahead, behind, index, _ | moved⟩ := here
    · exact Act.tandem_fail _
    · exact hsource.remove.bind fun _ => hself.modify _
  set x := (tandem_checkGap hself .set).bind fun _ => hsource.set x
  add x := by
    -- The element is in the source before the predicate is called on it.
    refine (tandem_checkGap hself .add).bind fun _ => (hsource.add x).bind fun _ =>
      (haccepts x).bind fun accepted => ?_
    have hmark := hself.modify fun s => { s with moved := none }
    cases accepted with
    | true => exact (hself.modify _).bind fun _ => hmark
    | false => exact hmark

end ListFilter

/-! ## §3. Transformations and views. -/

theorem Forward.Tandem.transform {source : Forward σ α} {source' : Forward τ α}
    {f : α → Act σ β} {f' : α → Act τ β} (hsource : Forward.Tandem c source source')
    (hf : ∀ x, Act.Tandem c (f x) (f' x)) :
    Forward.Tandem c (source.transform f) (source'.transform f') where
  hasNext := hsource.hasNext
  next := hsource.next.bind hf
  remove := hsource.remove

theorem Forward.Tandem.readOnly {source : Forward σ α} {source' : Forward τ α}
    (hsource : Forward.Tandem c source source') (owner : String) :
    Forward.Tandem c (source.readOnly owner) (source'.readOnly owner) where
  hasNext := hsource.hasNext
  next := hsource.next
  remove := Act.tandem_fail _

/-! ## §4. Buffers. -/

namespace Buffer

variable {self : Field σ (Buffer α)} {self' : Field τ (Buffer α)} {source : Forward σ α}
  {source' : Forward τ α} {strict : Act σ Bool} {strict' : Act τ Bool}

theorem tandem_checkMutable (hstrict : Act.Tandem c strict strict') (edit : Edit) :
    Act.Tandem c (checkMutable strict edit) (checkMutable strict' edit) := by
  refine hstrict.bind fun refused => ?_
  cases refused with
  | true => exact Act.tandem_fail _
  | false => exact Act.tandem_pure ()

theorem tandem_lastCrossed (hself : Field.Alike c self self') (edit : Edit) :
    Act.Tandem c (lastCrossed self edit) (lastCrossed self' edit) := by
  refine hself.read.bind fun here => ?_
  obtain ⟨kept, position, _ | last⟩ := here
  · exact Act.tandem_fail _
  · exact Act.tandem_pure last

theorem tandem_next (hself : Field.Alike c self self')
    (hsource : Forward.Tandem c source source') :
    Act.Tandem c (next self source) (next self' source') := by
  refine hself.read.bind fun here => ?_
  cases here.kept[here.position]? with
  | some x => exact (hself.modify _).bind fun _ => Act.tandem_pure x
  | none =>
      exact hsource.next.bind fun x => (hself.modify _).bind fun _ =>
        (hself.modify _).bind fun _ => Act.tandem_pure x

theorem tandem_previous (hself : Field.Alike c self self') :
    Act.Tandem c (previous self) (previous self') := by
  refine hself.read.bind fun here => ?_
  split
  · exact Act.tandem_fail .ended
  · refine (hself.write _).bind fun _ => ?_
    cases here.kept[here.position - 1]? with
    | some x => exact Act.tandem_pure x
    | none => exact Act.tandem_fail _

theorem tandem_twoWay (hstrict : Act.Tandem c strict strict') (hself : Field.Alike c self self')
    (hsource : Forward.Tandem c source source') :
    TwoWay.Tandem c (twoWay strict self source) (twoWay strict' self' source') where
  hasNext := by
    refine hself.read.bind fun here => ?_
    split
    · exact Act.tandem_pure true
    · exact hsource.hasNext
  next := tandem_next hself hsource
  hasPrevious := hself.read.bind fun here => Act.tandem_pure _
  previous := tandem_previous hself
  nextIndex := hself.read.bind fun here => Act.tandem_pure _
  previousIndex := (hself.read.bind fun here => Act.tandem_pure _).bind
    fun index => Act.tandem_pure (index - 1)
  remove := (tandem_checkMutable hstrict .remove).bind fun _ =>
    (tandem_lastCrossed hself .remove).bind fun _ => hself.modify _
  set x := (tandem_checkMutable hstrict .set).bind fun _ =>
    (tandem_lastCrossed hself .set).bind fun _ => hself.modify _
  add x := (tandem_checkMutable hstrict .add).bind fun _ => hself.modify _

end Buffer

end Cursors
