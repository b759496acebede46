/-
  Cursors.Proofs.Chain.Removal
  ────────────────────────────
  **A CHAIN REMOVES WHAT IT GAVE LAST.**

  A linkage is a chain over distinct lists, given to it one by one or within
  other chains.  A chain that was not used yet hands over its members; one
  that was asked for more before stays a member as it is, and may have
  turned past empty lists already.

  Every run of calls comes to what the tally of the lists says: the elements
  come out as in the concatenation of the lists as they were at the start,
  and a removal takes away the element that was given last from its own
  list, or is refused (`runs_as_tally`).
-/
import Cursors.Proofs.Chain.Link
import Cursors.Proofs.Machine

namespace Cursors

variable {σ α β : Type} {N : Nat} {τ : Fin N → Type}

/-! ## §1. Linkages. -/

/-- The members of a chain, in the portions in which it takes them up, each of them once. -/
structure Roll (N : Nat) where
  portions : List (List (Fin N))
  nodup : portions.flatten.Nodup

/-- The members in order. -/
def Roll.names (roll : Roll N) : List (Fin N) := roll.portions.flatten

/-- Lists in a chain, by the type of its states. -/
inductive Linkage (α : Type) : Type → Type 1 where
  /-- A list with a cursor at its front. -/
  | list (xs : List α) : Linkage α (Cursor × List α)
  /-- A chain that was asked `asked` times whether it has more. -/
  | chain {N : Nat} {τ : Fin N → Type} (roll : Roll N) (asked : Nat)
      (members : (i : Fin N) → Linkage α (τ i)) : Linkage α (Node (Chain (Fin N)) τ)

/-- The state that an action leaves behind. -/
def Act.leaves (x : Act σ α) (s : σ) : σ :=
  match x s with
  | .value _ s' | .failure _ s' => s'
  | .unfinished => s

namespace Linkage

/-- The linkage as a source. -/
def source : {τ : Type} → Linkage α τ → Forward τ α
  | _, list _ => (Cursor.twoWay .left (.ofList .right)).toForward
  | _, chain _ _ members => Chain.upon fun i => (members i).source

/-- A chain that has taken up its members, portion by portion. -/
def built (roll : Roll N) (below : (i : Fin N) → τ i) : Node (Chain (Fin N)) τ :=
  roll.portions.foldl (fun n portion => (Chain.extend Node.own (pure portion)).leaves n)
    { self := {}, below := below }

/-- The state of a linkage before the first call. -/
def new : {τ : Type} → Linkage α τ → τ
  | _, list xs => ({}, xs)
  | _, chain roll asked members =>
      Nat.iterate (Chain.upon fun i => (members i).source).hasNext.leaves asked
        (built roll fun i => (members i).new)

/-- The lists as they were at the start, in the order of the chain. -/
def rows : {τ : Type} → Linkage α τ → List (List α)
  | _, list xs => [xs]
  | _, chain roll _ members => roll.names.flatMap fun i => (members i).rows

/-- The lists as they are, in the same order. -/
def lists : {τ : Type} → Linkage α τ → τ → List (List α)
  | _, list _, s => [s.2]
  | _, chain roll _ members, n => roll.names.flatMap fun i => (members i).lists (n.below i)

/-! ## §2. The tallies of linkages. -/

/-- The linkage shows a tally. -/
def Shows : {τ : Type} → Linkage α τ → τ → Tally α → Prop
  | _, list _ => fun s t => ∃ bound past ahead, Tally.Leaf bound past ahead s t
  | _, chain roll _ members => Chain.Presents (fun i => (members i).Shows) roll.names

/-- By induction on the linkage, each of its parts keeps to its tally. -/
theorem tallied {τ : Type} (c : Linkage α τ) : Tallied c.source c.lists c.Shows := by
  induction c with
  | list xs => exact tallied_cursor
  | chain roll asked members ih => exact Chain.tallied_upon ih roll.nodup

theorem built_eq (roll : Roll N) (below : (i : Fin N) → τ i) :
    built roll below = { self := { members := roll.names }, below := below } := by
  have hfold : ∀ (portions : List (List (Fin N))) (members : List (Fin N)),
      portions.foldl (fun n portion => (Chain.extend Node.own (pure portion)).leaves n)
          ({ self := { members := members }, below := below } : Node (Chain (Fin N)) τ)
        = { self := { members := members ++ portions.flatten }, below := below } := by
    intro portions
    induction portions with
    | nil =>
        intro members
        rw [List.flatten_nil, List.append_nil]
        rfl
    | cons portion portions ih =>
        intro members
        rw [List.flatten_cons, ← List.append_assoc]
        exact ih (members ++ portion)
  exact hfold roll.portions []

theorem start_rows_flatMap (names : List (Fin N)) (rows : Fin N → List (List α)) :
    (Tally.start (names.flatMap rows)).rows = Chain.rowsOf (fun i => .start (rows i)) names := by
  rw [Tally.start, List.map_flatMap]
  rfl

/-- A question changes the state, but nothing that the tally speaks of. -/
theorem shows_asked {τ : Type} (c : Linkage α τ) (asked : Nat) {s : τ} {t : Tally α}
    (h : c.Shows s t) : c.Shows (Nat.iterate c.source.hasNext.leaves asked s) t := by
  induction asked generalizing s with
  | zero => exact h
  | succ asked ih =>
      obtain ⟨s', hask, h'⟩ := c.tallied.hasNext h
      have hleaves : c.source.hasNext.leaves s = s' := by
        unfold Act.leaves
        rw [hask]
      rw [Function.iterate_succ_apply, hleaves]
      exact ih h'

/-- Before the first call nothing was handed out. -/
theorem shows_new {τ : Type} (c : Linkage α τ) : c.Shows c.new (.start c.rows) := by
  induction c with
  | list xs => exact ⟨_, _, _, Tally.leaf_start xs⟩
  | chain roll asked members ih =>
      have hbuilt : (chain roll 0 members).Shows (built roll fun i => (members i).new)
          (.start (chain roll asked members).rows) := by
        rw [built_eq]
        refine ⟨fun i => .start (members i).rows, ⟨rfl, ih, ?_, rfl, nofun⟩,
          .inl ⟨rfl, rfl, rfl, fun _ _ => rfl⟩⟩
        exact start_rows_flatMap roll.names fun i => (members i).rows
      exact shows_asked (chain roll 0 members) asked hbuilt

end Linkage

/-! ## §3. Every run. -/

namespace Linkage

variable {roll : Roll N} {asked : Nat} {members : (i : Fin N) → Linkage α (τ i)}

/-- Each call of a chain comes to what its tally says. -/
theorem ask_respond {n : Node (Chain (Fin N)) τ} {t : Tally α}
    (h : (chain roll asked members).Shows n t) (call : Pull) :
    ∃ n', call.ask (chain roll asked members).source n = .of (t.respond call).1 n'
      ∧ (chain roll asked members).Shows n' (t.respond call).2 := by
  have htallied := (chain roll asked members).tallied
  cases call with
  | hasNext =>
      obtain ⟨n', hask, h'⟩ := htallied.hasNext h
      exact ⟨n', by simp only [Pull.ask, Act.bind_apply, hask]; rfl, h'⟩
  | next =>
      cases hcoming : t.coming with
      | some x =>
          obtain ⟨n', hnext, h'⟩ := htallied.next_some h hcoming
          rw [Tally.respond_next_of_some hcoming]
          exact ⟨n', by simp only [Pull.ask, Act.bind_apply, hnext]; rfl, h'⟩
      | none =>
          obtain ⟨n', hnext, h'⟩ := htallied.next_none h hcoming
          rw [Tally.respond_next_of_none hcoming]
          exact ⟨n', by simp only [Pull.ask, Act.bind_apply, hnext]; rfl, h'⟩
  | remove =>
      cases hheld : t.held with
      | true =>
          obtain ⟨n', hremove, h'⟩ := htallied.remove h hheld
          rw [Tally.respond_remove_of_held hheld]
          exact ⟨n', by simp only [Pull.ask, Act.bind_apply, hremove]; rfl, h'⟩
      | false =>
          have hremove : (chain roll asked members).source.remove n
              = .failure (.notMoved .remove false) n := Chain.remove_of_not_held h hheld
          rw [Tally.respond_remove_of_not_held hheld]
          exact ⟨n, by simp only [Pull.ask, Act.bind_apply, hremove]; rfl, h⟩

theorem transcript_report {n : Node (Chain (Fin N)) τ} {t : Tally α}
    (h : (chain roll asked members).Shows n t) (calls : List Pull) :
    (transcript (Pull.ask (chain roll asked members).source) calls n).map
        (Outcome.seen (chain roll asked members).lists)
      = (t.report calls).map some := by
  induction calls generalizing n t with
  | nil => rfl
  | cons call calls ih =>
      obtain ⟨n', hask, h'⟩ := ask_respond h call
      rw [transcript_cons_of hask, List.map_cons, Outcome.seen_of, ih h',
        (chain roll asked members).tallied.lists_eq h']
      rfl

/-- **Every run of calls of a chain comes to what the tally of its lists says: the elements come
out as in the concatenation of the lists, all of them before the end, a removal takes the element
given last out of the list that it came from, or is refused, and each list holds what has not been
removed from it.** -/
theorem runs_as_tally (roll : Roll N) (asked : Nat) (members : (i : Fin N) → Linkage α (τ i))
    (calls : List Pull) :
    (transcript (Pull.ask (chain roll asked members).source) calls
          (chain roll asked members).new).map (Outcome.seen (chain roll asked members).lists)
        = ((Tally.start (chain roll asked members).rows).report calls).map some
      ∧ Tally.elements ((Tally.start (chain roll asked members).rows).report calls)
          <+: (chain roll asked members).rows.flatten
      ∧ ((∃ seen ∈ (Tally.start (chain roll asked members).rows).report calls,
            seen.1 = .error .ended) →
          Tally.elements ((Tally.start (chain roll asked members).rows).report calls)
            = (chain roll asked members).rows.flatten) := by
  have hitems := Tally.items_start (chain roll asked members).rows
  refine ⟨transcript_report (chain roll asked members).shows_new calls, ?_, fun hended => ?_⟩
  · rw [← hitems]
    exact Tally.elements_report_isPrefix calls (.start (chain roll asked members).rows)
  · rw [← hitems]
    exact Tally.elements_report_of_ended calls _ hended

/-- Two lists with an empty one between them; the first two come from a chain of their own. -/
def bridge : Linkage Nat (Node (Chain (Fin 3)) fun _ : Fin 3 => Cursor × List Nat) :=
  chain ⟨[[0, 1], [2]], by decide⟩ 0 fun i => list ([[1], [], [2]].getD i.val [])

/-- The chain has turned past the empty list when the first element is removed. -/
example :
    (transcript (Pull.ask bridge.source) [.next, .hasNext, .remove, .remove, .next]
        bridge.new).map (Outcome.seen bridge.lists)
      = [some (.ok (.element 1), [[1], [], [2]]), some (.ok (.truth true), [[1], [], [2]]),
        some (.ok .done, [[], [], [2]]), some (.error (.notMoved .remove false), [[], [], [2]]),
        some (.ok (.element 2), [[], [], [2]])] := rfl

end Linkage

end Cursors
