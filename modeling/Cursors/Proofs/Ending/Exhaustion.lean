/-
  Cursors.Proofs.Ending.Exhaustion
  ────────────────────────────────
  **ONCE A PIPELINE HAS SAID THAT IT HAS NO MORE.**

  The leaves of a rooted assembly are cursors, windows, and look-aheads over
  plain sources; the latter may go on after an end, and every function may
  fail at any call.  By induction on the assembly its end lasts (`lasting`).
  A question that is answered by no shows that the assembly is at its end,
  so in every run of calls, after such an answer

      hasNext   is answered by no
      next      signals an end
      remove    succeeds or fails

  (`exhaustion_lasts`).  None of these calls runs out of fuel.
-/
import Cursors.Proofs.Ending.Lasting

namespace Cursors

variable {τ α : Type}

/-! ## §1. Runs from an end. -/

/-- What a call comes to that is made of an exhausted source. -/
def Pull.Exhausted : Pull → Outcome τ (Answer α) → Prop
  | .hasNext, o => ∃ t, o = .value (.truth false) t
  | .next, o => ∃ t, o = .failure .ended t
  | .remove, o => ∃ r t, o = .of r t

namespace Course

variable {c : Course τ} {source : Forward τ α} {t : τ}

/-- A call at the end. -/
theorem Lasting.ask (h : c.Lasting source) (ht : c.AtEnd t) (call : Pull) :
    ∃ r t', call.ask source t = .of r t' ∧ call.Exhausted (.of r t') ∧ c.AtEnd t' := by
  cases call with
  | hasNext =>
      obtain ⟨t', hask, ht'⟩ := h.hasNext t ht
      exact ⟨_, t', Pull.ask_hasNext_of hask, ⟨t', rfl⟩, ht'⟩
  | next =>
      obtain ⟨t', hstep, ht'⟩ := h.next t ht
      exact ⟨_, t', Pull.ask_next_of hstep, ⟨t', rfl⟩, ht'⟩
  | remove =>
      obtain ⟨r, t', hremove, hfit, hspent⟩ := h.remove t ht.1
      exact ⟨_, t', Pull.ask_remove_of hremove, ⟨_, t', rfl⟩, hfit, hspent ht.2⟩

/-- Calls that are made one after the other from the end on. -/
theorem Lasting.exhausted (h : c.Lasting source) (calls : List Pull) (ht : c.AtEnd t) :
    List.Forall₂ Pull.Exhausted calls (transcript (Pull.ask source) calls t) := by
  induction calls generalizing t with
  | nil => exact .nil
  | cons call calls ih =>
      obtain ⟨r, t', hask, hcall, ht'⟩ := h.ask ht call
      rw [transcript_cons_of hask]
      exact .cons hcall (ih ht')

/-- A source that keeps to its course is in a state in which it can be, whatever it is asked. -/
theorem Sound.fit_of_ask (h : c.Sound source) (hlast : c.Lasting source) (hfit : c.Fit t)
    {call : Pull} {r : Except Failure (Answer α)} {t' : τ}
    (hask : call.ask source t = .of r t') : c.Fit t' := by
  have hafter : (call.ask source).After t fun _ t' => c.Fit t' := by
    cases call with
    | hasNext =>
        refine (h.hasNext t hfit).bind ?_ ?_
        · exact fun b t' hb => Act.after_pure hb.fit
        · exact fun e t' he => he.fit
    | next =>
        refine (h.next t hfit).bind ?_ ?_
        · exact fun x t' hx => Act.after_pure hx.fit
        · exact fun e t' he => he.fit
    | remove =>
        obtain ⟨r, t', hremove, hfit', -⟩ := hlast.remove t hfit
        exact Act.after_of_outcome (Pull.ask_remove_of hremove) hfit'
  unfold Act.After at hafter
  rw [hask] at hafter
  cases r <;> exact hafter

/-- Where the question is answered by no, the source is at its end. -/
theorem Sound.atEnd_of_no (h : c.Sound source) (hfit : c.Fit t) {t' : τ}
    (hno : source.hasNext t = .value false t') : c.AtEnd t' := by
  have hasked := h.hasNext t hfit
  unfold Act.After at hasked
  rw [hno] at hasked
  exact ⟨hasked.fit, hasked.spent rfl⟩

end Course

namespace Assembly

/-! ## §2. Rooted assemblies. -/

/-- All leaves are cursors, windows, and look-aheads over plain sources. -/
def Rooted : {τ : Type} → Assembly α τ → Prop
  | _, supply s => s.Elementary
  | _, feed _ => True
  | _, filter _ below => below.Rooted
  | _, transform _ below => below.Rooted
  | _, flatten _ _ _ branches => ∀ k, (branches k).Rooted
  | _, chain members => ∀ i, (members i).Rooted
  | _, merge _ children => ∀ i, (children i).Rooted
  | _, buffer _ below => below.Rooted
  | _, readOnly below => below.Rooted

variable [Inhabited α]

theorem lasting (mode : Mode) {fuel : Nat} (hfuel : 0 < fuel) {a : Assembly α τ} (ha : a.Rooted) :
    (a.course mode).Lasting (a.source mode fuel) := by
  induction a with
  | supply s => exact ha.lasting
  | feed steps => exact Feed.lasting steps
  | filter cb below ih => exact Filter.lasting (ih ha) mode cb hfuel
  | transform cb below ih => exact Transform.lasting (ih ha) mode cb
  | flatten root walk cb branches ih => exact Canopy.lasting _ _ walk mode cb hfuel
  | chain members ih => exact Chain.lasting fun i => ih i (ha i)
  | merge precedes children ih => exact Merge.lasting (fun i => ih i (ha i)) precedes
  | buffer strict below ih => exact Buffer.lasting (ih ha) strict
  | readOnly below ih => exact ⟨(ih ha).hasNext, (ih ha).next, Course.spares_fail _ _⟩

/-- The states that the assembly comes to when it is called from outside.  A buffer offers more
calls than are listed here; what they add is that they change what the buffer keeps. -/
inductive Reached (mode : Mode) (fuel : Nat) : {τ : Type} → Assembly α τ → τ → Prop where
  | new {τ : Type} (a : Assembly α τ) : Reached mode fuel a a.new
  | called {τ : Type} {a : Assembly α τ} {t t' : τ} {call : Pull} {r : Except Failure (Answer α)}
      (h : Reached mode fuel a t) (hask : call.ask (a.source mode fuel) t = .of r t') :
      Reached mode fuel a t'
  | kept {τ : Type} {strict : Bool} {below : Assembly α τ}
      {n : Node (Buffer α) fun _ : Unit => τ} (h : Reached mode fuel (buffer strict below) n)
      (own : Buffer α) : Reached mode fuel (buffer strict below) (Node.own.set own n)

theorem Reached.fit {mode : Mode} {fuel : Nat} {a : Assembly α τ} {t : τ}
    (h : a.Reached mode fuel t) (hfuel : 0 < fuel) (ha : a.Rooted) : (a.course mode).Fit t := by
  induction h with
  | new a => exact a.fit_new mode
  | called h hask ih => exact (sound mode fuel _).fit_of_ask (lasting mode hfuel ha) (ih ha) hask
  | kept h own ih => exact ih ha

/-! ## §3. Every run. -/

/-- **Exhaustion lasts.**  Wherever `hasNext` has been answered by no, each later `hasNext` is
answered by no and each later `next` signals an end, whatever is removed in between and whether or
not that succeeds. -/
theorem exhaustion_lasts {mode : Mode} {fuel : Nat} (hfuel : 0 < fuel) {a : Assembly α τ}
    (ha : a.Rooted) {t t' : τ} (ht : a.Reached mode fuel t)
    (hno : (a.source mode fuel).hasNext t = .value false t') (calls : List Pull) :
    List.Forall₂ Pull.Exhausted calls (transcript (Pull.ask (a.source mode fuel)) calls t') :=
  (lasting mode hfuel ha).exhausted calls ((a.sound mode fuel).atEnd_of_no (ht.fit hfuel ha) hno)

/-- A plain source that ends at its first step and goes on with fives. -/
def resuming (k : Nat) : Except Failure Nat := if k = 0 then .error .ended else .ok 5

/-- The states of a cursor and of a look-ahead. -/
def Relayed : Fin 2 → Type
  | ⟨0, _⟩ => Cursor × List Nat
  | ⟨_ + 1, _⟩ => Peek Nat × Nat

theorem spans_seven : ({} : Cursor).Spans 1 (.ofList [7] 0) :=
  Cursor.spans_ofList (Place.standsAt_plain (Nat.zero_le 1)) (Nat.zero_le 1) (Nat.le_refl 1)

/-- The list of one element, and the resuming source after it. -/
def relay : Assembly Nat (Node (Chain (Fin 2)) Relayed) :=
  chain (n := 2) fun
    | ⟨0, _⟩ => supply (.cursorAt spans_seven)
    | ⟨_ + 1, _⟩ => feed resuming

theorem rooted_relay : relay.Rooted := fun
  | ⟨0, _⟩ => .cursor _
  | ⟨_ + 1, _⟩ => trivial

/-- After its one element the relay has no more, and neither the removal of that element nor the
resuming source changes this. -/
theorem exhaustion_lasts_relay :
    ∃ t t', 0 < 1 ∧ relay.Rooted ∧ relay.Reached .wrap 1 t
      ∧ (relay.source .wrap 1).hasNext t = .value false t'
      ∧ List.Forall₂ Pull.Exhausted [.remove, .hasNext, .next]
        (transcript (Pull.ask (relay.source .wrap 1)) [.remove, .hasNext, .next] t') := by
  have hnew : relay.Reached .wrap 1 relay.new := .new relay
  have hstep : Pull.next.ask (relay.source .wrap 1) relay.new = .of (.ok (.element 7)) _ := rfl
  have hreached := hnew.called hstep
  exact ⟨_, _, Nat.zero_lt_one, rooted_relay, hreached, rfl,
    exhaustion_lasts Nat.zero_lt_one rooted_relay hreached rfl [.remove, .hasNext, .next]⟩

end Assembly

end Cursors
