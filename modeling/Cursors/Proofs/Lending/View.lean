/-
  Cursors.Proofs.Lending.View
  ───────────────────────────
  **MOVES DO NOT DEPEND ON EDITS.**

  A combinator over read-only views of its sources moves as it does over the
  sources themselves, since a move calls moves only.  So the moves of two
  combinators run in tandem if those of their sources do
  (`tandem_readOnly`).  A buffer edits what it keeps, and a flattening
  refuses: they are altogether the same over views, and run in tandem as
  soon as the moves below them do (`tandem_of_readOnly`).
-/
import Cursors.Proofs.Tandem.Junction
import Cursors.Proofs.Tandem.Overlay

namespace Cursors

variable {σ τ ι α : Type} {c : Coupling σ τ} (view : String)

theorem TwoWay.Tandem.readOnly {source : TwoWay σ α} {source' : TwoWay τ α}
    (h : TwoWay.Tandem c source source') (owner : String) :
    TwoWay.Tandem c (source.readOnly owner) (source'.readOnly owner) where
  hasNext := h.hasNext
  next := h.next
  remove := Act.tandem_fail _
  hasPrevious := h.hasPrevious
  previous := h.previous
  nextIndex := h.nextIndex
  previousIndex := h.previousIndex
  set _ := Act.tandem_fail _
  add _ := Act.tandem_fail _

/-! ## §1. Over one source. -/

section

variable {source : Forward σ α} {source' : Forward τ α}
  (hsource : Forward.Tandem c (source.readOnly view) (source'.readOnly view))
include hsource

theorem Filter.tandem_readOnly {self : Field σ (Filter α)} {self' : Field τ (Filter α)}
    {accepts : α → Act σ Bool} {accepts' : α → Act τ Bool} (hself : Field.Alike c self self')
    (haccepts : ∀ x, Act.Tandem c (accepts x) (accepts' x)) (fuel : Nat) :
    Forward.Tandem c ((Filter.forward fuel self source accepts).readOnly view)
      ((Filter.forward fuel self' source' accepts').readOnly view) :=
  (Filter.tandem_forward hself hsource haccepts fuel).readOnly view

theorem Forward.tandem_readOnly_transform {f : α → Act σ α} {f' : α → Act τ α}
    (hf : ∀ x, Act.Tandem c (f x) (f' x)) :
    Forward.Tandem c ((source.transform f).readOnly view) ((source'.transform f').readOnly view) :=
  (hsource.transform hf).readOnly view

theorem Buffer.tandem_of_readOnly {self : Field σ (Buffer α)} {self' : Field τ (Buffer α)}
    {strict : Act σ Bool} {strict' : Act τ Bool} (hself : Field.Alike c self self')
    (hstrict : Act.Tandem c strict strict') :
    TwoWay.Tandem c (Buffer.twoWay strict self source) (Buffer.twoWay strict' self' source') := by
  have hbuffer := Buffer.tandem_twoWay hstrict hself hsource
  exact hbuffer

end

theorem ListFilter.tandem_readOnly {self : Field σ (ListFilter α)} {self' : Field τ (ListFilter α)}
    {source : TwoWay σ α} {source' : TwoWay τ α} {accepts : α → Act σ Bool}
    {accepts' : α → Act τ Bool} (hself : Field.Alike c self self')
    (hsource : TwoWay.Tandem c (source.readOnly view) (source'.readOnly view))
    (haccepts : ∀ x, Act.Tandem c (accepts x) (accepts' x)) (fuel : Nat) :
    TwoWay.Tandem c ((ListFilter.twoWay fuel self source accepts).readOnly view)
      ((ListFilter.twoWay fuel self' source' accepts').readOnly view) :=
  (ListFilter.tandem_twoWay hself hsource haccepts fuel).readOnly view

/-! ## §2. Chains. -/

namespace Chain

section

variable (self : Field σ (Chain ι)) (member : ι → Forward σ α)

theorem advance_readOnly (steps : Nat) :
    advance self (fun i => (member i).readOnly view) steps = advance self member steps := by
  induction steps with
  | zero => rfl
  | succ steps ih =>
      unfold advance
      rw [ih]
      rfl

theorem readOnly_forward (note : Nat → Act σ Unit) (owner : String) :
    (forward self (fun i => (member i).readOnly view) note).readOnly owner
      = (forward self member note).readOnly owner := by
  have hsettle : settle self (fun i => (member i).readOnly view) note
      = settle self member note := by
    unfold settle
    simp only [advance_readOnly]
  simp only [Forward.readOnly, forward, hasNext, next] at hsettle ⊢
  rw [hsettle]

end

variable {self : Field σ (Chain ι)} {self' : Field τ (Chain ι)} {member : ι → Forward σ α}
  {member' : ι → Forward τ α} {note : Nat → Act σ Unit} {note' : Nat → Act τ Unit}

theorem tandem_readOnly (hself : Field.Alike c self self')
    (hmember : ∀ i, Forward.Tandem c ((member i).readOnly view) ((member' i).readOnly view))
    (hnote : ∀ n, Act.Tandem c (note n) (note' n)) :
    Forward.Tandem c ((forward self member note).readOnly view)
      ((forward self' member' note').readOnly view) := by
  rw [← readOnly_forward view self, ← readOnly_forward view self']
  exact (tandem_forward hself hmember hnote).readOnly view

end Chain

/-! ## §3. Merges. -/

namespace Merge

variable [Inhabited α]

section

variable (self : Field σ (Merge α)) (source : ι → Forward σ α) (precedes : α → α → Act σ Bool)

omit [Inhabited α] in
theorem anyHasNext_readOnly (names : List ι) :
    anyHasNext (names.map fun i => (source i).readOnly view) = anyHasNext (names.map source) := by
  induction names with
  | nil => rfl
  | cons name names ih =>
      simp only [List.map_cons]
      unfold anyHasNext
      rw [ih]
      rfl

theorem scan_readOnly (names : List ι) (k : Nat) (best : Option (Nat × α)) :
    scan self precedes (names.map fun i => (source i).readOnly view) k best
      = scan self precedes (names.map source) k best := by
  induction names generalizing k best with
  | nil => rfl
  | cons name names ih =>
      simp only [List.map_cons]
      unfold scan
      simp only [ih]
      rfl

theorem readOnly_forward (names : List ι) (owner : String) :
    (forward self (names.map fun i => (source i).readOnly view) precedes).readOnly owner
      = (forward self (names.map source) precedes).readOnly owner := by
  have hany := anyHasNext_readOnly view source names
  have hscan := scan_readOnly view self source precedes names
  simp only [Forward.readOnly, forward, hasNext, next] at hany hscan ⊢
  rw [hany, hscan]

end

variable {self : Field σ (Merge α)} {self' : Field τ (Merge α)} {source : ι → Forward σ α}
  {source' : ι → Forward τ α} {precedes : α → α → Act σ Bool} {precedes' : α → α → Act τ Bool}

theorem tandem_forward (hseals : c.Seals c) (hself : Field.Alike c self self')
    (hsource : ∀ i, Forward.Tandem c (source i) (source' i))
    (hprecedes : ∀ x y, Act.Tandem c (precedes x y) (precedes' x y)) (names : List ι) :
    Forward.Tandem c (forward self (names.map source) precedes)
      (forward self' (names.map source') precedes') :=
  ⟨tandem_hasNext hself (fun i => (hsource i).hasNext.sealed hseals) names,
    tandem_next hself hsource hprecedes names, tandem_remove hself hsource names⟩

theorem tandem_readOnly (hseals : c.Seals c) (hself : Field.Alike c self self')
    (hsource : ∀ i, Forward.Tandem c ((source i).readOnly view) ((source' i).readOnly view))
    (hprecedes : ∀ x y, Act.Tandem c (precedes x y) (precedes' x y)) (names : List ι) :
    Forward.Tandem c ((forward self (names.map source) precedes).readOnly view)
      ((forward self' (names.map source') precedes').readOnly view) := by
  rw [← readOnly_forward view self, ← readOnly_forward view self']
  exact (tandem_forward hseals hself hsource hprecedes names).readOnly view

end Merge

/-! ## §4. Flattenings. -/

/-- The same values, over views of the branches. -/
def Nesting.readOnly (nesting : Nesting σ ι α) : Nesting σ ι α :=
  { nesting with elements := fun i => (nesting.elements i).readOnly view }

namespace Flatten

theorem search_readOnly (self : Field σ (Flatten ι α)) (nesting : Nesting σ ι α) (fuel : Nat) :
    search self (nesting.readOnly view) fuel = search self nesting fuel := by
  induction fuel with
  | zero => rfl
  | succ fuel ih =>
      unfold search
      rw [ih]
      rfl

theorem forward_readOnly (self : Field σ (Flatten ι α)) (nesting : Nesting σ ι α) (owner : String)
    (fuel : Nat) :
    forward owner fuel self (nesting.readOnly view) = forward owner fuel self nesting := by
  have hfind : find fuel self (nesting.readOnly view) = find fuel self nesting := by
    unfold find
    rw [search_readOnly]
    rfl
  unfold forward hasNext next
  rw [hfind]

theorem tandem_of_readOnly {self : Field σ (Flatten ι α)} {self' : Field τ (Flatten ι α)}
    {nesting : Nesting σ ι α} {nesting' : Nesting τ ι α} (hself : Field.Alike c self self')
    (hnesting : Nesting.Tandem c (nesting.readOnly view) (nesting'.readOnly view))
    (owner : String) (fuel : Nat) :
    Forward.Tandem c (forward owner fuel self nesting) (forward owner fuel self' nesting') := by
  rw [← forward_readOnly view self, ← forward_readOnly view self']
  exact tandem_forward hself hnesting owner fuel

end Flatten

end Cursors
