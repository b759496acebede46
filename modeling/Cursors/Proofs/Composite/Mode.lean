/-
  Cursors.Proofs.Composite.Mode
  ─────────────────────────────
  **THE ERROR MODE CHANGES ONLY WHICH FAILURE IS SHOWN.**

  The mode decides how the guard of a hook reports a failure, and nothing
  else.  In passthrough a hook may send an end through a pipeline whose
  parts signal ends to each other, so one has to see that no part ever
  looks at the failure that passes through it.  This is what the rules for
  actions in tandem say: two runs in different modes are in the same state
  after every call, also after one that failed (`transcript_veiled`).
-/
import Cursors.Proofs.After
import Cursors.Proofs.Composite.Syntax
import Cursors.Proofs.Tandem.Junction
import Cursors.Proofs.Tandem.Overlay

namespace Cursors

variable {σ υ α β : Type}

/-! ## §1. Equal states. -/

namespace Coupling

/-- Two runs in the same state throughout; the failures may differ. -/
def abreast : Coupling σ σ where
  Meet s t := s = t
  Failed _ s _ t := s = t
  failed_of_meet h _ := h

theorem abreast_seals : (abreast : Coupling σ σ).Seals abreast := ⟨fun _ _ => Iff.rfl, fun h => h⟩

theorem tandem_abreast (x : Act σ α) : Act.Tandem abreast x x := by
  rintro s _ rfl
  cases x s with
  | value a s' => exact ⟨rfl, rfl⟩
  | failure e s' => exact rfl
  | unfinished => trivial

theorem alike_abreast (part : Field σ υ) : Field.Alike abreast part part where
  get_eq h := congrArg part.get h
  meet_set h u := congrArg (part.set u) h

end Coupling

open Coupling

/-! ## §2. Composites in two modes. -/

/-- A hook fails in one mode just if it fails in the other, and leaves the same state behind. -/
theorem Hook.tandem_modes (hook : Hook σ α) (mode mode' : Mode) (x : α) :
    Act.Tandem abreast (hook.ask mode x) (hook.ask mode' x) := by
  rintro s _ rfl
  cases hrun : hook.run x s with
  | value y s' =>
      rw [Hook.ask_of_value hrun, Hook.ask_of_value hrun]
      exact ⟨rfl, rfl⟩
  | failure e s' =>
      rw [Hook.ask_of_failure hrun, Hook.ask_of_failure hrun]
      exact rfl
  | unfinished =>
      rw [Hook.ask_of_unfinished hrun, Hook.ask_of_unfinished hrun]
      trivial

namespace Composite

theorem tandem_accepts (predicate : Hook σ α) (truth : α → Act σ Bool) (mode mode' : Mode)
    (x : α) :
    Act.Tandem abreast (accepts predicate truth mode x) (accepts predicate truth mode' x) :=
  (predicate.tandem_modes mode mode' x).bind fun y => tandem_abreast (truth y)

theorem tandem_classify (classifier : Option (Hook σ α)) (mode mode' : Mode) (x : α) :
    Act.Tandem abreast (classify classifier mode x) (classify classifier mode' x) := by
  cases classifier with
  | none => exact Act.tandem_pure x
  | some hook => exact hook.tandem_modes mode mode' x

variable [Inhabited α]

/-- In any two modes a composite runs in tandem with itself. -/
theorem tandem_source (mode mode' : Mode) (fuel : Nat) {r : Reach} (p : Composite σ α r) :
    Reach.Tandem abreast (p.source mode fuel) (p.source mode' fuel) := by
  induction p with
  | @given r source reset =>
      have hleaf : ∀ source : Forward σ α, Forward.Tandem abreast source source := fun source =>
        ⟨tandem_abreast _, tandem_abreast _, tandem_abreast _⟩
      cases r with
      | forward => exact hleaf source
      | twoWay =>
          exact ⟨hleaf _, tandem_abreast _, tandem_abreast _, tandem_abreast _,
            tandem_abreast _, fun x => tandem_abreast _, fun x => tandem_abreast _⟩
  | ahead below ih => exact TwoWay.Tandem.toTandem ih
  | filter self predicate truth below ih =>
      exact Filter.tandem_forward (alike_abreast self) ih
        (tandem_accepts predicate truth mode mode') fuel
  | listFilter self predicate truth below ih =>
      exact ListFilter.tandem_twoWay (alike_abreast self) ih
        (tandem_accepts predicate truth mode mode') fuel
  | transform function below ih =>
      exact Forward.Tandem.transform ih (function.tandem_modes mode mode')
  | flatten owner self classifier branch single branches ih =>
      refine Flatten.tandem_forward (alike_abreast self) ?_ owner fuel
      exact ⟨tandem_classify classifier mode mode', fun x => tandem_abreast (branch x),
        fun x => tandem_abreast (single x), ih⟩
  | chain self note members ih =>
      exact Chain.tandem_forward (alike_abreast self) ih fun n => tandem_abreast (note n)
  | merge self precedes children ih =>
      exact ⟨Merge.tandem_hasNext (alike_abreast self)
          (fun i => (ih i).hasNext.sealed abreast_seals) _,
        Merge.tandem_next (alike_abreast self) ih (fun x y => tandem_abreast (precedes x y)) _,
        Merge.tandem_remove (alike_abreast self) ih _⟩
  | buffer self strict below ih =>
      exact Buffer.tandem_twoWay (tandem_abreast strict) (alike_abreast self) ih
  | readOnly owner below ih => exact Forward.Tandem.readOnly ih owner

theorem tandem_ask (mode mode' : Mode) (fuel : Nat) {r : Reach} (p : Composite σ α r)
    (g : Gesture α) : Act.Tandem abreast (p.ask mode fuel g) (p.ask mode' fuel g) :=
  (tandem_source mode mode' fuel p).door.ask (tandem_abreast p.reset) g

end Composite

/-! ## §3. Sequences of calls. -/

/-- What an outcome shows besides the failure: whether there was one, the answer if not, and the
state that is left behind. -/
def Outcome.veiled : Outcome σ β → Option (Option β × σ)
  | .value b s => some (some b, s)
  | .failure _ s => some (none, s)
  | .unfinished => none

theorem transcript_of_tandem {ask ask' : Gesture α → Act σ β}
    (h : ∀ g, Act.Tandem abreast (ask g) (ask' g)) (gestures : List (Gesture α)) (s : σ) :
    (transcript ask gestures s).map Outcome.veiled
      = (transcript ask' gestures s).map Outcome.veiled := by
  induction gestures generalizing s with
  | nil => rfl
  | cons g gestures ih =>
      unfold transcript
      obtain ⟨b, s', _, hask, hask', rfl⟩ | ⟨e, s', e', _, hask, hask', hsame⟩ | ⟨hask, hask'⟩ :=
        (h g s s rfl).split
      · rw [hask, hask']
        exact congrArg (_ :: ·) (ih s')
      · obtain rfl : s' = _ := hsame
        rw [hask, hask']
        exact congrArg (_ :: ·) (ih s')
      · rw [hask, hask']

/-- **In both modes the same calls of a composite answer, with the same answers, the same ones
fail, and after each call everything is in the same state.** -/
theorem Composite.transcript_veiled [Inhabited α] {r : Reach} (p : Composite σ α r) (fuel : Nat)
    (gestures : List (Gesture α)) (s : σ) :
    (transcript (p.ask .wrap fuel) gestures s).map Outcome.veiled
      = (transcript (p.ask .passthrough fuel) gestures s).map Outcome.veiled :=
  transcript_of_tandem (p.tandem_ask .wrap .passthrough fuel) gestures s

end Cursors
