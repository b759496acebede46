/-
  Cursors.Proofs.Composite.Delivery
  ─────────────────────────────────
  **HOW THE FAILURE OF A HOOK REACHES THE CALLER.**

  A composite is watched: beside its state a log is kept, in which each
  hook that fails notes an incident.  Watching changes nothing, and the two
  runs in tandem show what becomes of an incident (`watched_ask`).  On its
  way up a failure passes through every part unchanged, with one exception:
  the question of a merge encloses an end.  The log says so of an incident
  that came through such a question (`Incident.crossed`).

  Hence a call during which a hook fails does fail, in the form that the
  mode prescribes, unless failures are passed through, the failure is an
  end and it came through the question of a merge (`delivered`).
-/
import Cursors.Proofs.After
import Cursors.Proofs.Composite.Syntax
import Cursors.Proofs.Ending.Course
import Cursors.Proofs.Tandem.Junction
import Cursors.Proofs.Tandem.Overlay

namespace Cursors

variable {σ υ α β : Type}

/-! ## §1. Incidents. -/

/-- The failure of a hook. -/
structure Incident where
  cause : Failure
  /-- The report on the element, as far as there can be one. -/
  report : Except Failure String
  /-- The failure has come through the question of a merge. -/
  crossed : Bool := false

namespace Incident

/-- The same incident once its failure has come through the question of a merge. -/
def across (i : Incident) : Incident := { i with crossed := true }

/-- What a guard makes of the failure. -/
def shown (i : Incident) (mode : Mode) : Failure :=
  Guard.raised mode (fun _ : Unit => i.report) () i.cause

/-- What has become of the failure where it has come to. -/
def arrives (i : Incident) (mode : Mode) : Failure :=
  if i.crossed then (i.shown mode).enclosed else i.shown mode

theorem arrives_across (i : Incident) (mode : Mode) :
    i.across.arrives mode = (i.arrives mode).enclosed := by
  show (i.shown mode).enclosed = (i.arrives mode).enclosed
  unfold arrives
  split
  · exact ((i.shown mode).enclosed_enclosed).symm
  · rfl

end Incident

/-- A state under watch: the incidents so far, and the state itself. -/
abbrev Watch (σ : Type) : Type := List Incident × σ

/-! ## §2. Watched composites. -/

/-- The hook notes an incident where it fails. -/
def Hook.watched (hook : Hook σ α) : Hook (Watch σ) α where
  run x w :=
    match hook.run x w.2 with
    | .value y s => .value y (w.1, s)
    | .failure e s => .failure e (w.1 ++ [{ cause := e, report := hook.report s x }], s)
    | .unfinished => .unfinished
  report w := hook.report w.2

/-- The incidents that fail an action have come through the question of a merge. -/
def Act.crossing (x : Act (Watch σ) α) : Act (Watch σ) α := fun w =>
  match x w with
  | .failure e w' => .failure e (w'.1.map Incident.across, w'.2)
  | outcome => outcome

/-- A two-way source that works on a part of the state. -/
def TwoWay.within (part : Field σ υ) (source : TwoWay υ α) : TwoWay σ α where
  toForward := source.toForward.within part
  hasPrevious := source.hasPrevious.within part
  previous := source.previous.within part
  nextIndex := source.nextIndex.within part
  previousIndex := source.previousIndex.within part
  set x := (source.set x).within part
  add x := (source.add x).within part

/-- A source that works on a part of the state. -/
def Reach.within (part : Field σ υ) : {r : Reach} → r.Source υ α → r.Source σ α
  | .forward => Forward.within part
  | .twoWay => TwoWay.within part

namespace Composite

/-- The composite as a source under watch: its hooks note incidents, its merges note which of them
come through their question, and everything else works on the state as before. -/
def watched [Inhabited α] (mode : Mode) (fuel : Nat) :
    {r : Reach} → Composite σ α r → r.Source (Watch σ) α
  | _, given source _ => Reach.within .right source
  | _, ahead below => TwoWay.toForward (below.watched mode fuel)
  | _, filter self predicate truth below =>
      Filter.forward fuel (Field.right.comp self) (below.watched mode fuel)
        (accepts predicate.watched (fun y => (truth y).within .right) mode)
  | _, listFilter self predicate truth below =>
      ListFilter.twoWay fuel (Field.right.comp self) (below.watched mode fuel)
        (accepts predicate.watched (fun y => (truth y).within .right) mode)
  | _, transform function below =>
      Forward.transform (below.watched mode fuel) (function.watched.ask mode)
  | _, flatten owner self classifier branch single branches =>
      Flatten.forward owner fuel (Field.right.comp self)
        { classify := classify (classifier.map Hook.watched) mode
          branch := fun x => (branch x).within .right
          single := fun x => (single x).within .right
          elements := fun i => (branches i).watched mode fuel }
  | _, chain self note members =>
      Chain.forward (Field.right.comp self) (fun i => (members i).watched mode fuel)
        fun n => (note n).within .right
  | _, merge self precedes children =>
      let merged := Merge.forward (Field.right.comp self)
        ((List.finRange _).map fun i => (children i).watched mode fuel)
        fun x y => (precedes x y).within .right
      { merged with hasNext := merged.hasNext.crossing }
  | _, buffer self strict below =>
      Buffer.twoWay (strict.within .right) (Field.right.comp self) (below.watched mode fuel)
  | _, readOnly owner below => Forward.readOnly owner (below.watched mode fuel)

/-- Make a gesture to a composite under watch. -/
def watchedAsk [Inhabited α] {r : Reach} (p : Composite σ α r) (mode : Mode) (fuel : Nat)
    (g : Gesture α) : Act (Watch σ) (Reply α) :=
  g.ask (Reach.door (p.watched mode fuel)) (p.reset.within .right)

end Composite

/-! ## §3. Watching changes nothing. -/

namespace Coupling

/-- The watched run is in the same state and has met no incident, or has failed with the same
failure: on account of one incident, or of something else than a hook. -/
def watching (mode : Mode) : Coupling σ (Watch σ) where
  Meet s w := w = ([], s)
  Failed e s e' w := e' = e ∧ w.2 = s
    ∧ (w.1 = [] ∨ ∃ i : Incident, w.1 = [i] ∧ e = i.arrives mode)
  failed_of_meet := by
    rintro s _ rfl e
    exact ⟨rfl, rfl, .inl rfl⟩

/-- The same within the question of a merge, which has yet to be noted. -/
def questioning (mode : Mode) : Coupling σ (Watch σ) where
  Meet s w := w = ([], s)
  Failed e s e' w := e' = e ∧ w.2 = s
    ∧ (w.1 = [] ∨ ∃ i : Incident, w.1 = [i] ∧ e = i.across.arrives mode)
  failed_of_meet := by
    rintro s _ rfl e
    exact ⟨rfl, rfl, .inl rfl⟩

variable {mode : Mode}

theorem watching_seals : (watching mode : Coupling σ _).Seals (questioning mode) where
  meet_iff _ _ := Iff.rfl
  failed := by
    rintro e s _ w ⟨rfl, hstate, hlog⟩
    refine ⟨rfl, hstate, hlog.imp_right ?_⟩
    rintro ⟨i, hi, rfl⟩
    exact ⟨i, hi, (i.arrives_across mode).symm⟩

theorem alike_right {c : Coupling σ (Watch σ)} (hmeet : ∀ s w, c.Meet s w ↔ w = ([], s))
    (part : Field σ υ) : Field.Alike c part (Field.right.comp part) where
  get_eq := by
    intro s w h
    obtain rfl := (hmeet s w).mp h
    rfl
  meet_set := by
    intro s w h u
    obtain rfl := (hmeet s w).mp h
    exact (hmeet _ _).mpr rfl

theorem alike_watching (part : Field σ υ) :
    Field.Alike (watching mode) part (Field.right.comp part) :=
  alike_right (fun _ _ => Iff.rfl) part

theorem alike_questioning (part : Field σ υ) :
    Field.Alike (questioning mode) part (Field.right.comp part) :=
  alike_right (fun _ _ => Iff.rfl) part

theorem tandem_within (x : Act σ α) :
    Act.Tandem (watching mode) x (x.within .right) := by
  rintro s _ rfl
  unfold Act.within
  show Outcomes _ (x s) (match x s with | .value _ _ => _ | .failure _ _ => _ | .unfinished => _)
  cases x s with
  | value a s' => exact ⟨rfl, rfl⟩
  | failure e s' => exact ⟨rfl, rfl, .inl rfl⟩
  | unfinished => trivial

theorem tandem_crossing {x : Act σ α} {y : Act (Watch σ) α}
    (h : Act.Tandem (questioning mode) x y) : Act.Tandem (watching mode) x y.crossing := by
  intro s w hmeet
  unfold Act.crossing
  obtain ⟨a, s', w', hx, hy, hmeet'⟩ | ⟨e, s', _, w', hx, hy, rfl, hstate, hlog⟩ | ⟨hx, hy⟩ :=
    (h s w hmeet).split
  · rw [hx, hy]
    exact ⟨rfl, hmeet'⟩
  · rw [hx, hy]
    refine ⟨rfl, hstate, ?_⟩
    obtain hnone | ⟨i, hi, rfl⟩ := hlog
    · exact .inl (by rw [hnone]; rfl)
    · exact .inr ⟨i.across, by rw [hi]; rfl, rfl⟩
  · rw [hx, hy]
    trivial

end Coupling

open Coupling

/-- A hook that fails under watch notes just this. -/
theorem Hook.tandem_watched (hook : Hook σ α) (mode : Mode) (x : α) :
    Act.Tandem (watching mode) (hook.ask mode x) (hook.watched.ask mode x) := by
  rintro s _ rfl
  cases hrun : hook.run x s with
  | value y s' =>
      have hwatched : hook.watched.run x ([], s) = .value y ([], s') := by
        simp only [watched, hrun]
      rw [Hook.ask_of_value hrun, Hook.ask_of_value hwatched]
      exact ⟨rfl, rfl⟩
  | failure e s' =>
      have hwatched : hook.watched.run x ([], s)
          = .failure e ([{ cause := e, report := hook.report s' x }], s') := by
        simp only [watched, hrun, List.nil_append]
      rw [Hook.ask_of_failure hrun, Hook.ask_of_failure hwatched]
      exact ⟨rfl, rfl, .inr ⟨_, rfl, rfl⟩⟩
  | unfinished =>
      have hwatched : hook.watched.run x ([], s) = .unfinished := by
        simp only [watched, hrun]
      rw [Hook.ask_of_unfinished hrun, Hook.ask_of_unfinished hwatched]
      trivial

namespace Composite

theorem tandem_accepts_watched (predicate : Hook σ α) (truth : α → Act σ Bool) (mode : Mode)
    (x : α) :
    Act.Tandem (watching mode) (accepts predicate truth mode x)
      (accepts predicate.watched (fun y => (truth y).within .right) mode x) :=
  (predicate.tandem_watched mode x).bind fun y => tandem_within (truth y)

theorem tandem_classify_watched (classifier : Option (Hook σ α)) (mode : Mode) (x : α) :
    Act.Tandem (watching mode) (classify classifier mode x)
      (classify (classifier.map Hook.watched) mode x) := by
  cases classifier with
  | none => exact Act.tandem_pure x
  | some hook => exact hook.tandem_watched mode x

variable [Inhabited α]

/-- A composite runs in tandem with itself under watch. -/
theorem tandem_watched (mode : Mode) (fuel : Nat) {r : Reach} (p : Composite σ α r) :
    Reach.Tandem (watching mode) (p.source mode fuel) (p.watched mode fuel) := by
  induction p with
  | @given r source reset =>
      have hleaf : ∀ source : Forward σ α,
          Forward.Tandem (watching mode) source (source.within .right) := fun source =>
        ⟨tandem_within _, tandem_within _, tandem_within _⟩
      cases r with
      | forward => exact hleaf source
      | twoWay =>
          exact ⟨hleaf _, tandem_within _, tandem_within _, tandem_within _, tandem_within _,
            fun x => tandem_within _, fun x => tandem_within _⟩
  | ahead below ih => exact TwoWay.Tandem.toTandem ih
  | filter self predicate truth below ih =>
      exact Filter.tandem_forward (alike_watching self) ih
        (tandem_accepts_watched predicate truth mode) fuel
  | listFilter self predicate truth below ih =>
      exact ListFilter.tandem_twoWay (alike_watching self) ih
        (tandem_accepts_watched predicate truth mode) fuel
  | transform function below ih =>
      exact Forward.Tandem.transform ih (function.tandem_watched mode)
  | flatten owner self classifier branch single branches ih =>
      refine Flatten.tandem_forward (alike_watching self) ?_ owner fuel
      exact ⟨tandem_classify_watched classifier mode, fun x => tandem_within (branch x),
        fun x => tandem_within (single x), ih⟩
  | chain self note members ih =>
      exact Chain.tandem_forward (alike_watching self) ih fun n => tandem_within (note n)
  | merge self precedes children ih =>
      exact ⟨tandem_crossing (Merge.tandem_hasNext (alike_questioning self)
          (fun i => (ih i).hasNext.sealed watching_seals) _),
        Merge.tandem_next (alike_watching self) ih (fun x y => tandem_within (precedes x y)) _,
        Merge.tandem_remove (alike_watching self) ih _⟩
  | buffer self strict below ih =>
      exact Buffer.tandem_twoWay (tandem_within strict) (alike_watching self) ih
  | readOnly owner below ih => exact Forward.Tandem.readOnly ih owner

/-- A gesture comes to the same under watch. -/
theorem tandem_watchedAsk (mode : Mode) (fuel : Nat) {r : Reach} (p : Composite σ α r)
    (g : Gesture α) : Act.Tandem (watching mode) (p.ask mode fuel g) (p.watchedAsk mode fuel g) :=
  (tandem_watched mode fuel p).door.ask (tandem_within p.reset) g

end Composite

/-! ## §4. What reaches the caller. -/

theorem Failure.isEnd_of_isEvaluation {e : Failure} (h : e.isEvaluation = true) :
    e.isEnd = false := by
  cases e with
  | raised kind text =>
      obtain rfl : kind = "EvaluationError" := by simpa [isEvaluation] using h
      rfl
  | evaluation report cause => rfl
  | _ => exact nomatch h

namespace Incident

/-- The form in which a failure is due: together with its element, once, or as it is. -/
def due (i : Incident) (text : String) : Mode → Failure
  | .wrap => if i.cause.isEvaluation then i.cause else .evaluation text i.cause
  | .passthrough => i.cause

/-- The failure is an end that is passed through, and has come through the question of a merge. -/
def Masked (i : Incident) (mode : Mode) : Prop :=
  mode = .passthrough ∧ i.crossed = true ∧ i.cause.isEnd = true

variable {i : Incident} {mode : Mode} {text : String}

theorem shown_eq_due (hordinary : i.cause.isOrdinary = true) (hreport : i.report = .ok text) :
    i.shown mode = i.due text mode := by
  unfold shown Guard.raised Guard.wraps
  cases mode with
  | passthrough =>
      rw [hordinary]
      rfl
  | wrap =>
      rw [hordinary, hreport]
      unfold due
      cases i.cause.isEvaluation <;> rfl

theorem isEnd_due_wrap (i : Incident) (text : String) : (i.due text .wrap).isEnd = false := by
  show (if i.cause.isEvaluation then i.cause else .evaluation text i.cause).isEnd = false
  split
  · exact Failure.isEnd_of_isEvaluation ‹_›
  · rfl

/-- A failure that is not masked arrives as it is due. -/
theorem arrives_eq_due (hordinary : i.cause.isOrdinary = true) (hreport : i.report = .ok text)
    (hmasked : ¬ i.Masked mode) : i.arrives mode = i.due text mode := by
  unfold arrives
  rw [shown_eq_due hordinary hreport]
  split
  next hcrossed =>
    apply Failure.enclosed_of_not_end
    cases mode with
    | wrap => exact i.isEnd_due_wrap text
    | passthrough =>
        cases hend : i.cause.isEnd with
        | false => exact hend
        | true => exact absurd ⟨rfl, hcrossed, hend⟩ hmasked
  next => rfl

/-- One that is masked arrives as a failure of another kind. -/
theorem arrives_of_masked (hordinary : i.cause.isOrdinary = true) (hreport : i.report = .ok text)
    (hmasked : i.Masked mode) : i.arrives mode = .endedInside i.cause := by
  obtain ⟨rfl, hcrossed, hend⟩ := hmasked
  unfold arrives
  rw [if_pos hcrossed, shown_eq_due hordinary hreport]
  exact Failure.enclosed_of_end hend

theorem arrives_eq_due_iff (hordinary : i.cause.isOrdinary = true)
    (hreport : i.report = .ok text) : i.arrives mode = i.due text mode ↔ ¬ i.Masked mode := by
  constructor
  · intro heq hmasked
    have henclosed := arrives_of_masked hordinary hreport hmasked
    obtain ⟨rfl, -, hend⟩ := hmasked
    have hcause : .endedInside i.cause = i.cause := henclosed.symm.trans heq
    rw [← hcause] at hend
    exact Bool.false_ne_true hend
  · exact arrives_eq_due hordinary hreport

end Incident

namespace Composite

variable [Inhabited α]

/-- **A call during which a hook fails does fail, and in the form that the mode prescribes: with
the report on the element, once, or as the hook failed.  The one exception is an end that is
passed through and comes through the question of a merge.** -/
theorem delivered {r : Reach} (p : Composite σ α r) (mode : Mode) (fuel : Nat) (g : Gesture α)
    {s s' : σ} {o : Except Failure (Reply α)} (hcall : p.ask mode fuel g s = .of o s') :
    ∃ incidents, p.watchedAsk mode fuel g ([], s) = .of o (incidents, s')
      ∧ incidents.length ≤ 1
      ∧ ∀ i ∈ incidents, ∃ e, o = .error e
        ∧ ∀ text, i.cause.isOrdinary = true → i.report = .ok text →
          (e = i.due text mode ↔ ¬ i.Masked mode)
            ∧ (i.Masked mode → e = .endedInside i.cause) := by
  obtain ⟨b, s₁, _, hask, hwatched, rfl⟩ | ⟨e, s₁, _, w, hask, hwatched, rfl, rfl, hlog⟩
      | ⟨hask, -⟩ := (tandem_watchedAsk mode fuel p g s ([], s) rfl).split
  · have hof : Outcome.of o s' = .of (.ok b) s₁ := hcall.symm.trans hask
    obtain ⟨rfl, rfl⟩ := Outcome.of_inj hof
    exact ⟨[], hwatched, Nat.zero_le 1, nofun⟩
  · have hof : Outcome.of o s' = .of (.error _) w.2 := hcall.symm.trans hask
    obtain ⟨rfl, rfl⟩ := Outcome.of_inj hof
    refine ⟨w.1, hwatched, ?_⟩
    obtain hnone | ⟨i, hi, rfl⟩ := hlog
    · rw [hnone]
      exact ⟨Nat.zero_le 1, nofun⟩
    · rw [hi]
      refine ⟨Nat.le_refl 1, ?_⟩
      intro j hj
      obtain rfl := List.mem_singleton.mp hj
      exact ⟨_, rfl, fun text hordinary hreport =>
        ⟨Incident.arrives_eq_due_iff hordinary hreport,
          Incident.arrives_of_masked hordinary hreport⟩⟩
  · cases o <;> exact nomatch hcall.symm.trans hask

/-- On this call the failure of a hook reaches the caller in the form that is due. -/
def Delivers {r : Reach} (p : Composite σ α r) (mode : Mode) (fuel : Nat) (g : Gesture α)
    (s : σ) : Prop :=
  ∀ o incidents s', p.watchedAsk mode fuel g ([], s) = .of o (incidents, s') →
    ∀ i ∈ incidents, ∀ text, i.cause.isOrdinary = true → i.report = .ok text →
      o = .error (i.due text mode)

end Composite

/-- The state of a merge of a filtered source and another one. -/
structure Confluence where
  merge : Merge Nat := .start 2
  filter : Filter Nat := {}
  left : Peek Nat × Nat := ({}, 0)
  right : Peek Nat × Nat := ({}, 0)

namespace Confluence

/-- A predicate that signals an end. -/
def ending : Hook Confluence Nat where
  run _ := Act.fail (.raised "StopIteration" none)
  report _ x := .ok (toString x)

/-- A look-ahead over a plain source of the given elements, in a part of the state. -/
def leaf (part : Field Confluence (Peek Nat × Nat)) (xs : List Nat) :
    Composite Confluence Nat .forward :=
  .given (r := .forward) (Forward.within part (Feed.source (Feed.ofList xs)))
    (Act.fail (.refused .attribute))

/-- The elements of `[1]` that a predicate accepts, merged with those of `[2]`. -/
def composite : Composite Confluence Nat .forward :=
  .merge ⟨merge, fun m s => { s with merge := m }⟩ (fun x y => pure (x < y)) fun i : Fin 2 =>
    if i = 0 then
      .filter ⟨filter, fun f s => { s with filter := f }⟩ ending (fun x => pure (x != 0))
        (leaf ⟨left, fun t s => { s with left := t }⟩ [1])
    else leaf ⟨right, fun t s => { s with right := t }⟩ [2]

/-- The incident that the predicate causes, where the question of the merge has been asked. -/
def incident : Incident :=
  { cause := .raised "StopIteration" none, report := .ok "1", crossed := true }

/-- With its report the failure of the predicate comes through the question of the merge. -/
theorem composite_delivered :
    composite.ask .wrap 2 (.call .hasNext) {}
        = .of (.error (.evaluation "1" (.raised "StopIteration" none))) { left := ({}, 1) }
      ∧ ∃ incidents, composite.watchedAsk .wrap 2 (.call .hasNext) ([], {})
          = .of (.error (.evaluation "1" (.raised "StopIteration" none)))
              (incidents, { left := ({}, 1) })
        ∧ incidents.length ≤ 1
        ∧ ∀ i ∈ incidents, ∃ e,
            (.error (.evaluation "1" (.raised "StopIteration" none)) : Except Failure (Reply Nat))
              = .error e
            ∧ ∀ text, i.cause.isOrdinary = true → i.report = .ok text →
              (e = i.due text .wrap ↔ ¬ i.Masked .wrap)
                ∧ (i.Masked .wrap → e = .endedInside i.cause) := by
  have hcall : composite.ask .wrap 2 (.call .hasNext) {}
      = .of (.error (.evaluation "1" (.raised "StopIteration" none))) { left := ({}, 1) } := rfl
  exact ⟨hcall, composite.delivered .wrap 2 (.call .hasNext) hcall⟩

/-- Where failures are passed through, the end that the predicate signals does not come through
the question of the merge. -/
theorem composite_not_delivers : ¬ composite.Delivers .passthrough 2 (.call .hasNext) {} := by
  intro h
  have hdue := h (.error (.endedInside incident.cause)) [incident] { left := ({}, 1) } rfl
    incident (List.mem_singleton_self _) "1" rfl rfl
  exact nomatch hdue

end Confluence

end Cursors
