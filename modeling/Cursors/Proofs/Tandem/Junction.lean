/-
  Cursors.Proofs.Tandem.Junction
  ──────────────────────────────
  **WHAT JOINS SEVERAL SOURCES RUNS IN TANDEM WITH THEM.**

  A chain turns from member to member, a merge goes over its slots, and a
  flattening over a stack of branches.  Which source is asked next depends
  on answers and on what the combinator keeps for itself, never on a failure.

  The question of a merge is the one place where a failure changes on its
  way up: the sources are asked under a seal.  Hence it may run in tandem
  for another coupling than the sources do.
-/
import Cursors.Combinator.Chain
import Cursors.Combinator.Flatten
import Cursors.Combinator.Merge
import Cursors.Proofs.Tandem.Coupling

namespace Cursors

variable {σ τ ι α : Type} {c : Coupling σ τ}

/-! ## §1. Chains. -/

namespace Chain

variable {self : Field σ (Chain ι)} {self' : Field τ (Chain ι)} {member : ι → Forward σ α}
  {member' : ι → Forward τ α} {note : Nat → Act σ Unit} {note' : Nat → Act τ Unit}

theorem tandem_advance (hself : Field.Alike c self self')
    (hmember : ∀ i, Forward.Tandem c (member i) (member' i)) (steps : Nat) :
    Act.Tandem c (advance self member steps) (advance self' member' steps) := by
  induction steps with
  | zero => exact Act.tandem_pure ()
  | succ steps ih =>
      refine hself.read.bind fun here => ?_
      cases here.current with
      | none => exact Act.tandem_pure ()
      | some m =>
          refine (hmember m).hasNext.bind fun more => ?_
          cases more with
          | true => exact Act.tandem_pure ()
          | false =>
              refine hself.read.bind fun here => ?_
              cases here.members[here.position + 1]? with
              | none => exact Act.tandem_pure ()
              | some following => exact (hself.modify _).bind fun _ => ih

theorem tandem_settle (hself : Field.Alike c self self')
    (hmember : ∀ i, Forward.Tandem c (member i) (member' i))
    (hnote : ∀ n, Act.Tandem c (note n) (note' n)) :
    Act.Tandem c (settle self member note) (settle self' member' note') := by
  refine hself.read.bind fun here => ?_
  obtain ⟨_, _, _, _, _ | _⟩ := here
  refine (hnote _).bind fun _ => (hself.modify _).bind fun _ => ?_
  -- Whether it was locked before or just now, the chain goes on in the same way.
  all_goals
    refine hself.read.bind fun here => ?_
    obtain ⟨members, _, _ | m, _, _⟩ := here
    · cases members with
      | nil => exact Act.tandem_pure ()
      | cons first rest =>
          exact (hself.modify _).bind fun _ => tandem_advance hself hmember _
    · exact tandem_advance hself hmember _

theorem tandem_forward (hself : Field.Alike c self self')
    (hmember : ∀ i, Forward.Tandem c (member i) (member' i))
    (hnote : ∀ n, Act.Tandem c (note n) (note' n)) :
    Forward.Tandem c (forward self member note) (forward self' member' note') where
  hasNext := by
    refine (tandem_settle hself hmember hnote).bind fun _ => hself.read.bind fun here => ?_
    cases here.current with
    | none => exact Act.tandem_pure false
    | some m => exact (hmember m).hasNext
  next := by
    refine (tandem_settle hself hmember hnote).bind fun _ => hself.read.bind fun here => ?_
    cases here.current with
    | none => exact Act.tandem_fail .ended
    | some m =>
        exact (hmember m).next.bind fun x => (hself.modify _).bind fun _ => Act.tandem_pure x
  remove := by
    refine hself.read.bind fun here => ?_
    cases here.lastUsed with
    | none => exact Act.tandem_fail _
    | some m => exact (hmember m).remove.bind fun _ => hself.modify _

end Chain

/-! ## §2. Merges. -/

namespace Merge

variable {self : Field σ (Merge α)} {self' : Field τ (Merge α)} {source : ι → Forward σ α}
  {source' : ι → Forward τ α}

/-- A merge is asked in tandem for any coupling for which its sources are under their seals. -/
theorem tandem_hasNext (hself : Field.Alike c self self')
    (hsource : ∀ i, Act.Tandem c (source i).hasNext.sealed (source' i).hasNext.sealed)
    (names : List ι) :
    Act.Tandem c (hasNext self (names.map source)) (hasNext self' (names.map source')) := by
  have hany : Act.Tandem c (anyHasNext (names.map source)) (anyHasNext (names.map source')) := by
    induction names with
    | nil => exact Act.tandem_pure false
    | cons name names ih =>
        refine (hsource name).bind fun more => ?_
        cases more with
        | true => exact Act.tandem_pure true
        | false => exact ih
  refine hself.read.bind fun here => ?_
  split
  · exact Act.tandem_pure true
  · exact hany

section

variable (hself : Field.Alike c self self')
  (hsource : ∀ i, Forward.Tandem c (source i) (source' i))
include hself hsource

theorem tandem_fill (k : Nat) (i : ι) :
    Act.Tandem c (fill self k (source i)) (fill self' k (source' i)) := by
  have hlook := hself.read.bind fun m => Act.tandem_pure (m.slot k).isSome
  refine hself.read.bind fun here => ?_
  split
  · exact Act.tandem_pure true
  · refine (hsource i).hasNext.bind fun more => ?_
    cases more with
    | true => exact (hsource i).next.bind fun x => (hself.modify _).bind fun _ => hlook
    | false => exact hlook

theorem tandem_remove (names : List ι) :
    Act.Tandem c (remove self (names.map source)) (remove self' (names.map source')) := by
  refine hself.read.bind fun here => ?_
  split
  · exact Act.tandem_fail _
  · have hfind : ∀ {υ : Type} (f : ι → Forward υ α),
        here.last.bind ((names.map f)[·]?) = (here.last.bind (names[·]?)).map f := by
      intro υ f
      cases here.last with
      | none => rfl
      | some k => exact List.getElem?_map
    rw [hfind, hfind]
    cases here.last.bind (names[·]?) with
    | none => exact Act.tandem_fail _
    | some i => exact (hsource i).remove.bind fun _ => hself.modify _

variable [Inhabited α] {precedes : α → α → Act σ Bool} {precedes' : α → α → Act τ Bool}
  (hprecedes : ∀ x y, Act.Tandem c (precedes x y) (precedes' x y))
include hprecedes

theorem tandem_scan (names : List ι) (k : Nat) (best : Option (Nat × α)) :
    Act.Tandem c (scan self precedes (names.map source) k best)
      (scan self' precedes' (names.map source') k best) := by
  induction names generalizing k best with
  | nil => exact Act.tandem_pure best
  | cons name names ih =>
      have htake := hself.read.bind fun here =>
        ih (k + 1) (some (k, (here.slot k).getD default))
      refine (tandem_fill hself hsource k name).bind fun filled => ?_
      cases filled with
      | false => exact ih (k + 1) best
      | true =>
          cases best with
          | none => exact htake
          | some held =>
              refine hself.read.bind fun here => (hprecedes _ held.2).bind fun better => ?_
              cases better with
              | true => exact htake
              | false => exact ih (k + 1) (some held)

theorem tandem_next (names : List ι) :
    Act.Tandem c (next self (names.map source) precedes)
      (next self' (names.map source') precedes') := by
  refine (tandem_scan hself hsource hprecedes names 0 none).bind fun found => ?_
  cases found with
  | none => exact Act.tandem_fail .ended
  | some held =>
      exact hself.read.bind fun here => (hself.modify _).bind fun _ => Act.tandem_pure _

end

end Merge

/-! ## §3. Flattenings. -/

/-- The values nest alike, and the branches run in tandem. -/
structure Nesting.Tandem (c : Coupling σ τ) (nesting : Nesting σ ι α)
    (nesting' : Nesting τ ι α) : Prop where
  classify : ∀ x, Act.Tandem c (nesting.classify x) (nesting'.classify x)
  branch : ∀ x, Act.Tandem c (nesting.branch x) (nesting'.branch x)
  single : ∀ x, Act.Tandem c (nesting.single x) (nesting'.single x)
  elements : ∀ i, Forward.Tandem c (nesting.elements i) (nesting'.elements i)

namespace Flatten

variable {self : Field σ (Flatten ι α)} {self' : Field τ (Flatten ι α)} {nesting : Nesting σ ι α}
  {nesting' : Nesting τ ι α}

section

variable (hself : Field.Alike c self self') (hnesting : Nesting.Tandem c nesting nesting')
include hself hnesting

theorem tandem_start : Act.Tandem c (start self nesting) (start self' nesting') := by
  refine hself.read.bind fun here => (hself.modify _).bind fun _ => ?_
  cases here.root with
  | none => exact Act.tandem_pure ()
  | some root =>
      refine (hnesting.branch root).bind fun found => ?_
      cases found with
      | some b => exact (Act.tandem_pure b).bind fun opened => hself.modify _
      | none => exact (hnesting.single root).bind fun opened => hself.modify _

omit hnesting in
theorem tandem_close : Act.Tandem c (close self) (close self') := by
  refine hself.read.bind fun here => ?_
  cases here.stack with
  | nil => exact Act.tandem_fail _
  | cons _ below => exact hself.modify _

theorem tandem_search (fuel : Nat) :
    Act.Tandem c (search self nesting fuel) (search self' nesting' fuel) := by
  induction fuel with
  | zero => exact Act.tandem_unfinished
  | succ fuel ih =>
      refine hself.read.bind fun here => ?_
      cases here.stack with
      | nil => exact Act.tandem_pure none
      | cons top below =>
          have htop := hnesting.elements top
          refine htop.hasNext.bind fun more => ?_
          cases more with
          | false => exact (tandem_close hself).bind fun _ => ih
          | true =>
              refine htop.next.bind fun x => (hnesting.classify x).bind fun y =>
                (hnesting.branch y).bind fun found => ?_
              cases found with
              | some b => exact (hself.modify _).bind fun _ => ih
              | none => exact Act.tandem_pure (some y)

theorem tandem_find (fuel : Nat) :
    Act.Tandem c (find fuel self nesting) (find fuel self' nesting') := by
  refine hself.read.bind fun here => ?_
  split
  · exact (tandem_start hself hnesting).bind fun _ => tandem_search hself hnesting fuel
  · exact tandem_search hself hnesting fuel

theorem tandem_forward (owner : String) (fuel : Nat) :
    Forward.Tandem c (forward owner fuel self nesting) (forward owner fuel self' nesting') where
  hasNext := by
    refine hself.read.bind fun here => ?_
    obtain ⟨root, started, stack, _ | held⟩ := here
    · refine (tandem_find hself hnesting fuel).bind fun found => ?_
      cases found with
      | none => exact Act.tandem_pure false
      | some x => exact (hself.modify _).bind fun _ => Act.tandem_pure true
    · exact Act.tandem_pure true
  next := by
    refine hself.read.bind fun here => ?_
    obtain ⟨root, started, stack, _ | held⟩ := here
    · refine (tandem_find hself hnesting fuel).bind fun found => ?_
      cases found with
      | none => exact Act.tandem_fail .ended
      | some x => exact (hself.modify _).bind fun _ => Act.tandem_pure x
    · exact (hself.modify _).bind fun _ => Act.tandem_pure held
  remove := Act.tandem_fail _

end

end Flatten

end Cursors
