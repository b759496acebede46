/-
  Cursors.Proofs.Chain.Link
  ─────────────────────────
  **A CHAIN KEEPS TO THE TALLY OF ITS MEMBERS.**

  The tally of a chain is put together from those of its members: its lists
  are theirs, one after the other.  Of the member in use and of the one that
  gave the last element it is known how many elements were handed out before
  their own (`offset`), which is why a removal falls on the right list,
  however far the chain has moved on since.

  The tallies of the other members may still hold an element that could be
  removed.  Nothing is asked of them, since the chain forgets them.
-/
import Cursors.Proofs.Chain.Leaf
import Cursors.Proofs.Ending.Chain

namespace Cursors.Chain

variable {N : Nat} {τ : Fin N → Type} {α : Type}

/-! ## §1. The tallies of the members. -/

/-- The lists of some members, one after the other. -/
def rowsOf (u : Fin N → Tally α) (names : List (Fin N)) : List (List (Entry α)) :=
  names.flatMap fun i => (u i).rows

/-- The number of elements that there were in the lists of some members. -/
def offset (u : Fin N → Tally α) (names : List (Fin N)) : Nat :=
  (rowsOf u names).flatten.length

section

variable {u u' : Fin N → Tally α} {names pre post : List (Fin N)} {m : Fin N}

theorem rowsOf_split (u : Fin N → Tally α) (pre : List (Fin N)) (m : Fin N)
    (post : List (Fin N)) :
    rowsOf u (pre ++ m :: post) = rowsOf u pre ++ ((u m).rows ++ rowsOf u post) := by
  rw [rowsOf, List.flatMap_append, List.flatMap_cons]
  rfl

theorem offset_append (u : Fin N → Tally α) (pre post : List (Fin N)) :
    offset u (pre ++ post) = offset u pre + offset u post := by
  rw [offset, rowsOf, List.flatMap_append, List.flatten_append, List.length_append]
  rfl

theorem offset_cons (u : Fin N → Tally α) (m : Fin N) (post : List (Fin N)) :
    offset u (m :: post) = (u m).size + offset u post := by
  rw [offset, rowsOf, List.flatMap_cons, List.flatten_append, List.length_append]
  rfl

theorem rowsOf_congr (h : ∀ i ∈ names, (u' i).rows = (u i).rows) :
    rowsOf u' names = rowsOf u names := by
  rw [rowsOf, rowsOf, List.flatMap_def, List.flatMap_def, List.map_congr_left h]

/-- What is the same of a new tally of one member is the same of all. -/
theorem update_congr {β : Type} (f : Tally α → β) {v : Tally α} (h : f v = f (u m)) (i : Fin N) :
    f (Function.update u m v i) = f (u i) := by
  by_cases him : i = m
  · subst him
    rw [Function.update_self]
    exact h
  · rw [Function.update_of_ne him]

/-- What is said of the others stays. -/
theorem update_of_not_mem {ρ : Type} {u : Fin N → ρ} {v : ρ} (hm : m ∉ names) :
    ∀ i ∈ names, Function.update u m v i = u i := by
  intro i hi
  apply Function.update_of_ne
  rintro rfl
  exact hm hi

/-- A member is named once. -/
theorem not_mem_of_split (hnodup : names.Nodup) (hsplit : names = pre ++ m :: post) :
    m ∉ pre ∧ m ∉ post := by
  subst hsplit
  obtain ⟨-, hpost, hdisjoint⟩ := List.nodup_append.mp hnodup
  exact ⟨fun hm => hdisjoint m hm m List.mem_cons_self rfl, (List.nodup_cons.mp hpost).1⟩

theorem offset_congr (h : ∀ i, (u' i).size = (u i).size) (names : List (Fin N)) :
    offset u' names = offset u names := by
  induction names with
  | nil => rfl
  | cons i names ih => rw [offset_cons, offset_cons, h i, ih]

end

/-! ## §2. What a chain shows. -/

/-- The chain uses the member `m`, after those in `pre` and before those in `post`. -/
structure Reads (c : Chain (Fin N)) (names : List (Fin N)) (u : Fin N → Tally α) (t : Tally α)
    (pre : List (Fin N)) (m : Fin N) (post : List (Fin N)) : Prop where
  split : names = pre ++ m :: post
  current_eq : c.current = some m
  position_eq : c.position = pre.length
  given_eq : t.given = offset u pre + (u m).given
  fresh : ∀ i ∈ post, (u i).given = 0

/-- The chain has not turned to a member yet. -/
structure Idle (c : Chain (Fin N)) (names : List (Fin N)) (u : Fin N → Tally α) (t : Tally α) :
    Prop where
  current_eq : c.current = none
  position_eq : c.position = 0
  given_eq : t.given = 0
  fresh : ∀ i ∈ names, (u i).given = 0

/-- The members show their tallies, and the tally of the chain is put together from these. -/
structure Joined (Shows : (i : Fin N) → τ i → Tally α → Prop) (names : List (Fin N))
    (n : Node (Chain (Fin N)) τ) (u : Fin N → Tally α) (t : Tally α) : Prop where
  members_eq : n.self.members = names
  shows : ∀ i, Shows i (n.below i) (u i)
  rows_eq : t.rows = rowsOf u names
  held_eq : t.held = n.self.lastUsed.isSome
  last : ∀ {m}, n.self.lastUsed = some m →
    (u m).held = true ∧ ∃ pre post, names = pre ++ m :: post ∧ t.given = offset u pre + (u m).given

/-- A chain shows a tally. -/
def Presents (Shows : (i : Fin N) → τ i → Tally α → Prop) (names : List (Fin N))
    (n : Node (Chain (Fin N)) τ) (t : Tally α) : Prop :=
  ∃ u, Joined Shows names n u t
    ∧ (Idle n.self names u t ∨ ∃ pre m post, Reads n.self names u t pre m post)

section

variable {Shows : (i : Fin N) → τ i → Tally α → Prop} {names pre post : List (Fin N)}
  {n : Node (Chain (Fin N)) τ} {c : Chain (Fin N)} {u u' : Fin N → Tally α} {t t' : Tally α}
  {m : Fin N}

theorem Joined.size_eq (h : Joined Shows names n u t) : t.size = offset u names := by
  rw [Tally.size, h.rows_eq, offset]

/-- What a chain shows besides does not depend on the member in use. -/
theorem Joined.set_own (h : Joined Shows names n u t) (hmembers : c.members = n.self.members)
    (hlast : c.lastUsed = n.self.lastUsed) : Joined Shows names (Node.own.set c n) u t where
  members_eq := hmembers.trans h.members_eq
  shows := h.shows
  rows_eq := h.rows_eq
  held_eq := by
    rw [h.held_eq]
    exact congrArg Option.isSome hlast.symm
  last hm := h.last (hlast.symm.trans hm)

/-- Members may move as long as they show what is said of them then. -/
theorem shows_put {ρ : Type} {Shows : (i : Fin N) → τ i → ρ → Prop} {u : Fin N → ρ}
    (h : ∀ i, Shows i (n.below i) (u i)) {s : τ m} {v : ρ} (hs : Shows m s v) (i : Fin N) :
    Shows i (((Node.child m).set s n).below i) (Function.update u m v i) := by
  by_cases him : i = m
  · subst him
    rw [Node.below_child_set_self, Function.update_self]
    exact hs
  · rw [Node.below_child_set_of_ne n s him, Function.update_of_ne him]
    exact h i

/-- A member that shows the same tally as before changes nothing. -/
theorem Joined.put (h : Joined Shows names n u t) {s : τ m} (hs : Shows m s (u m)) :
    Joined Shows names ((Node.child m).set s n) u t where
  members_eq := h.members_eq
  shows i := by
    have hput := shows_put h.shows hs i
    rwa [Function.update_eq_self] at hput
  rows_eq := h.rows_eq
  held_eq := h.held_eq
  last := h.last

theorem Reads.congr (h : Reads c names u t pre m post) (hgiven : t'.given = t.given)
    (hgivens : ∀ i, (u' i).given = (u i).given) (hsizes : ∀ i, (u' i).size = (u i).size) :
    Reads c names u' t' pre m post where
  split := h.split
  current_eq := h.current_eq
  position_eq := h.position_eq
  given_eq := by rw [hgiven, offset_congr hsizes, hgivens, h.given_eq]
  fresh i hi := (hgivens i).trans (h.fresh i hi)

theorem Idle.congr (h : Idle c names u t) (hgiven : t'.given = t.given)
    (hgivens : ∀ i, (u' i).given = (u i).given) : Idle c names u' t' where
  current_eq := h.current_eq
  position_eq := h.position_eq
  given_eq := hgiven.trans h.given_eq
  fresh i hi := (hgivens i).trans (h.fresh i hi)

/-- A chain whose member in use has run out, with others to come, may turn to the next one. -/
theorem Reads.turn {following : Fin N} {rest : List (Fin N)}
    (h : Reads c names u t pre m (following :: rest)) (hdone : (u m).given = (u m).size) :
    Reads { c with position := c.position + 1, current := some following } names u t
      (pre ++ [m]) following rest where
  split := by rw [h.split, List.append_assoc]; rfl
  current_eq := rfl
  position_eq := by
    rw [List.length_append]
    exact congrArg (· + 1) h.position_eq
  given_eq := by
    rw [h.given_eq, hdone, h.fresh following List.mem_cons_self, offset_append, offset_cons]
    rfl
  fresh i hi := h.fresh i (List.mem_cons_of_mem following hi)

/-- A chain that has not turned to a member yet may turn to the first one. -/
theorem Idle.turn {first : Fin N} {rest : List (Fin N)} (h : Idle c (first :: rest) u t) :
    Reads { c with current := some first, locked := true } (first :: rest) u t [] first rest where
  split := rfl
  current_eq := rfl
  position_eq := h.position_eq
  given_eq := by
    rw [h.given_eq, h.fresh first List.mem_cons_self]
    rfl
  fresh i hi := h.fresh i (List.mem_cons_of_mem first hi)

/-- Closing a chain for changes does not move it. -/
theorem Reads.closed (h : Reads c names u t pre m post) :
    Reads { c with locked := true } names u t pre m post :=
  ⟨h.split, h.current_eq, h.position_eq, h.given_eq, h.fresh⟩

/-- The member after the one in use. -/
theorem following_eq (hmembers : c.members = names) (hsplit : names = pre ++ m :: post)
    (hposition : c.position = pre.length) : c.members[c.position + 1]? = post.head? := by
  rw [hmembers, hsplit, hposition, List.getElem?_append_right (Nat.le_succ _),
    Nat.succ_sub (Nat.le_refl _), Nat.sub_self, List.getElem?_cons_succ, List.head?_eq_getElem?]

/-- If the member in use has an element, it is the one whose turn it is. -/
theorem Reads.coming_eq (h : Reads c names u t pre m post) (hrows : t.rows = rowsOf u names) {x : α}
    (hx : (u m).coming = some x) : t.coming = some x := by
  have hlt : (u m).given < (u m).rows.flatten.length := by
    by_contra hle
    have hnone := Tally.coming_eq_none_iff.mpr (Nat.le_of_not_lt hle)
    exact nomatch hx.symm.trans hnone
  rw [Tally.coming, hrows, h.split, rowsOf_split, h.given_eq, offset,
    List.flatten_append, List.flatten_append, List.getElem?_append_right (Nat.le_add_right _ _),
    Nat.add_sub_cancel_left, List.getElem?_append_left hlt]
  exact hx

end

/-! ## §3. Turning to a member. -/

section

variable {σ ι : Type} {self : Field σ (Chain ι)} {member : ι → Forward σ α} {steps : Nat}
  {s s' : σ} {m : ι}

theorem advance_of_more (hcurrent : (self.get s).current = some m)
    (hmore : (member m).hasNext s = .value true s') :
    advance self member (steps + 1) s = .value () s' := by
  simp only [advance, Act.bind_apply, Field.read_apply, hcurrent, hmore, if_true, Act.pure_apply]

theorem advance_of_last (hcurrent : (self.get s).current = some m)
    (hmore : (member m).hasNext s = .value false s')
    (hnone : (self.get s').members[(self.get s').position + 1]? = none) :
    advance self member (steps + 1) s = .value () s' := by
  simp only [advance, Act.bind_apply, Field.read_apply, hcurrent, hmore, Bool.false_eq_true,
    if_false, hnone, Act.pure_apply]

theorem advance_of_following {following : ι} (hcurrent : (self.get s).current = some m)
    (hmore : (member m).hasNext s = .value false s')
    (hsome : (self.get s').members[(self.get s').position + 1]? = some following) :
    advance self member (steps + 1) s
      = advance self member steps
          (self.set { self.get s' with
            position := (self.get s').position + 1, current := some following } s') := by
  simp only [advance, Act.bind_apply, Field.read_apply, hcurrent, hmore, Bool.false_eq_true,
    if_false, hsome, Field.modify_apply]

end

section

variable {τ : Fin N → Type} {member : Fin N → Forward (Node (Chain (Fin N)) τ) α}
  {n : Node (Chain (Fin N)) τ} {m first : Fin N} {names rest : List (Fin N)}

/-! Whether it was closed for changes before or not, a chain is closed when it settles. -/

theorem settle_of_nil (hcurrent : n.self.current = none) (hmembers : n.self.members = []) :
    settle Node.own member (fun _ => pure ()) n
      = .value () (Node.own.set { n.self with locked := true } n) := by
  obtain ⟨⟨members, position, current, lastUsed, locked⟩, calls, below⟩ := n
  obtain rfl : current = none := hcurrent
  obtain rfl : members = [] := hmembers
  cases locked <;> rfl

theorem settle_of_first (hcurrent : n.self.current = none)
    (hmembers : n.self.members = first :: rest) :
    settle Node.own member (fun _ => pure ()) n
      = advance Node.own member (first :: rest).length
          (Node.own.set { n.self with current := some first, locked := true } n) := by
  obtain ⟨⟨members, position, current, lastUsed, locked⟩, calls, below⟩ := n
  obtain rfl : current = none := hcurrent
  obtain rfl : members = first :: rest := hmembers
  cases locked <;> rfl

theorem settle_of_current (hcurrent : n.self.current = some m) (hmembers : n.self.members = names) :
    settle Node.own member (fun _ => pure ()) n
      = advance Node.own member names.length (Node.own.set { n.self with locked := true } n) := by
  obtain ⟨⟨members, position, current, lastUsed, locked⟩, calls, below⟩ := n
  obtain rfl : current = some m := hcurrent
  obtain rfl : members = names := hmembers
  cases locked <;> rfl

end

/-- The member in use has an element, or it is the last one. -/
def Final (u : Fin N → Tally α) (m : Fin N) (post : List (Fin N)) : Prop :=
  (u m).given < (u m).size ∨ post = []

/-- What holds of a chain that has turned to the member to be used. -/
def Poised (c : Chain (Fin N)) (names : List (Fin N)) (u : Fin N → Tally α) (t : Tally α) :
    Prop :=
  (names = [] ∧ Idle c names u t) ∨ ∃ pre m post, Reads c names u t pre m post ∧ Final u m post

/-- The members of a chain of sources. -/
def member (sources : (i : Fin N) → Forward (τ i) α) (i : Fin N) :
    Forward (Node (Chain (Fin N)) τ) α :=
  (sources i).within (Node.child i)

section

variable {Shows : (i : Fin N) → τ i → Tally α → Prop} {sources : (i : Fin N) → Forward (τ i) α}
  {lists : (i : Fin N) → τ i → List (List α)} {names pre post : List (Fin N)}
  {n : Node (Chain (Fin N)) τ} {u : Fin N → Tally α} {t : Tally α} {m : Fin N}

theorem Poised.presents (h : Poised n.self names u t) (hjoined : Joined Shows names n u t) :
    Presents Shows names n t := by
  obtain ⟨-, hidle⟩ | ⟨pre, m, post, hreads, -⟩ := h
  · exact ⟨u, hjoined, .inl hidle⟩
  · exact ⟨u, hjoined, .inr ⟨pre, m, post, hreads⟩⟩

variable (hsources : ∀ i, Tallied (sources i) (lists i) (Shows i))
include hsources

/-- A member is asked whether it has more, and shows the same tally afterwards. -/
theorem ask_member (hjoined : Joined Shows names n u t) (m : Fin N) :
    ∃ s, (member sources m).hasNext n
        = .value (decide ((u m).given < (u m).size)) ((Node.child m).set s n)
      ∧ Joined Shows names ((Node.child m).set s n) u t := by
  obtain ⟨s, hask, hs⟩ := (hsources m).hasNext (hjoined.shows m)
  exact ⟨s, Act.within_of (r := .ok _) hask, hjoined.put hs⟩

theorem advance_joined (steps : Nat) (hjoined : Joined Shows names n u t)
    (hreads : Reads n.self names u t pre m post) (hsteps : post.length < steps) :
    ∃ n', advance Node.own (member sources) steps n = .value () n'
      ∧ Joined Shows names n' u t ∧ Poised n'.self names u t := by
  induction steps generalizing n pre m post with
  | zero => exact absurd hsteps (Nat.not_lt_zero _)
  | succ steps ih =>
      obtain ⟨s, hask, hjoined'⟩ := ask_member hsources hjoined m
      have hcurrent : (Node.own.get n).current = some m := hreads.current_eq
      have hfollowing : (Node.own.get ((Node.child m).set s n)).members[
          (Node.own.get ((Node.child m).set s n)).position + 1]? = post.head? :=
        following_eq hjoined.members_eq hreads.split hreads.position_eq
      by_cases hlt : (u m).given < (u m).size
      · rw [decide_eq_true hlt] at hask
        exact ⟨_, advance_of_more hcurrent hask, hjoined',
          .inr ⟨pre, m, post, hreads, .inl hlt⟩⟩
      · rw [decide_eq_false hlt] at hask
        cases post with
        | nil =>
            exact ⟨_, advance_of_last hcurrent hask hfollowing, hjoined',
              .inr ⟨pre, m, [], hreads, .inr rfl⟩⟩
        | cons following rest =>
            have hdone : (u m).given = (u m).size :=
              Nat.le_antisymm ((hsources m).given_le (hjoined.shows m)) (Nat.le_of_not_lt hlt)
            rw [advance_of_following hcurrent hask hfollowing]
            exact ih (hjoined'.set_own rfl rfl) (hreads.turn hdone) (Nat.lt_of_succ_lt_succ hsteps)

/-- A chain has members enough to turn to the one to be used. -/
theorem advance_members (hjoined : Joined Shows names n u t)
    (hreads : Reads n.self names u t pre m post) :
    ∃ n', advance Node.own (member sources) names.length n = .value () n'
      ∧ Joined Shows names n' u t ∧ Poised n'.self names u t := by
  apply advance_joined hsources names.length hjoined hreads
  rw [hreads.split, List.length_append, List.length_cons]
  omega

/-- Whether it was closed for changes before or not, a chain turns to the member to be used. -/
theorem settle_joined (h : Presents Shows names n t) :
    ∃ n' u, settle Node.own (member sources) (fun _ => pure ()) n = .value () n'
      ∧ Joined Shows names n' u t ∧ Poised n'.self names u t := by
  obtain ⟨u, hjoined, hplace⟩ := h
  have hmembers := hjoined.members_eq
  obtain hidle | ⟨pre, m, post, hreads⟩ := hplace
  · cases names with
    | nil =>
        exact ⟨_, u, settle_of_nil hidle.current_eq hmembers, hjoined.set_own rfl rfl,
          .inl ⟨rfl, hidle.current_eq, hidle.position_eq, hidle.given_eq, hidle.fresh⟩⟩
    | cons first rest =>
        obtain ⟨n', hadvance, hn'⟩ := advance_members hsources
          (hjoined.set_own (c := { n.self with current := some first, locked := true }) rfl rfl)
          hidle.turn
        exact ⟨n', u, (settle_of_first hidle.current_eq hmembers).trans hadvance, hn'⟩
  · obtain ⟨n', hadvance, hn'⟩ := advance_members hsources
      (hjoined.set_own (c := { n.self with locked := true }) rfl rfl) hreads.closed
    exact ⟨n', u, (settle_of_current hreads.current_eq hmembers).trans hadvance, hn'⟩

end

/-! ## §4. The calls. -/

section

variable {Shows : (i : Fin N) → τ i → Tally α → Prop} {sources : (i : Fin N) → Forward (τ i) α}
  {lists : (i : Fin N) → τ i → List (List α)} {names pre post : List (Fin N)}
  {n : Node (Chain (Fin N)) τ} {u : Fin N → Tally α} {t : Tally α} {m : Fin N}

/-- Nothing is left of a chain just if nothing is left of the member that it has turned to. -/
theorem Reads.size_le_iff (hreads : Reads n.self names u t pre m post)
    (hjoined : Joined Shows names n u t)
    (hle : (u m).given ≤ (u m).size) (hfinal : Final u m post) :
    t.size ≤ t.given ↔ (u m).size ≤ (u m).given := by
  have hsize : t.size = offset u pre + ((u m).size + offset u post) := by
    rw [hjoined.size_eq, hreads.split, offset_append, offset_cons]
  rw [hsize, hreads.given_eq]
  obtain hlt | rfl := hfinal
  · omega
  · show _ + (_ + 0) ≤ _ ↔ _
    omega

theorem Reads.coming_eq_none_iff (hreads : Reads n.self names u t pre m post)
    (hjoined : Joined Shows names n u t)
    (hle : (u m).given ≤ (u m).size) (hfinal : Final u m post) :
    t.coming = none ↔ (u m).coming = none := by
  rw [Tally.coming_eq_none_iff, Tally.coming_eq_none_iff]
  exact hreads.size_le_iff hjoined hle hfinal

/-- After the member in use has handed out an element, this is the one that can be removed. -/
theorem presents_passed (hnodup : names.Nodup) (hjoined : Joined Shows names n u t)
    (hreads : Reads n.self names u t pre m post) {s : τ m} (hs : Shows m s (u m).passed) :
    Presents Shows names
      (Node.own.set { n.self with lastUsed := some m } ((Node.child m).set s n)) t.passed := by
  have hrows : ∀ i, (Function.update u m (u m).passed i).rows = (u i).rows :=
    update_congr Tally.rows rfl
  have hsizes : ∀ i, (Function.update u m (u m).passed i).size = (u i).size :=
    update_congr Tally.size rfl
  have hgiven : t.passed.given
      = offset (Function.update u m (u m).passed) pre
        + (Function.update u m (u m).passed m).given := by
    rw [offset_congr hsizes, Function.update_self]
    exact congrArg (· + 1) hreads.given_eq
  have hpost := (not_mem_of_split hnodup hreads.split).2
  refine ⟨Function.update u m (u m).passed, ?_, .inr ⟨pre, m, post, ?_⟩⟩
  · refine ⟨hjoined.members_eq, shows_put hjoined.shows hs, ?_, rfl, ?_⟩
    · rw [rowsOf_congr fun i _ => hrows i]
      exact hjoined.rows_eq
    · intro m' hm'
      obtain rfl := Option.some.inj hm'
      refine ⟨?_, pre, post, hreads.split, hgiven⟩
      rw [Function.update_self]
      rfl
  · refine ⟨hreads.split, hreads.current_eq, hreads.position_eq, hgiven, ?_⟩
    intro i hi
    rw [update_of_not_mem hpost i hi]
    exact hreads.fresh i hi

/-- The lists of a chain once the last element of a member has been removed. -/
theorem rows_cleared (hnodup : names.Nodup) (hrows : t.rows = rowsOf u names)
    (hsplit : names = pre ++ m :: post) (hgiven : t.given = offset u pre + (u m).given)
    (hpos : 0 < (u m).given) (hle : (u m).given ≤ (u m).size) :
    t.cleared.rows = rowsOf (Function.update u m (u m).cleared) names := by
  have hothers : ∀ {others : List (Fin N)}, m ∉ others →
      rowsOf (Function.update u m (u m).cleared) others = rowsOf u others := fun hm =>
    rowsOf_congr fun i hi => congrArg Tally.rows (update_of_not_mem hm i hi)
  obtain ⟨hpre, hpost⟩ := not_mem_of_split hnodup hsplit
  have hnumber : t.given - 1 = (rowsOf u pre).flatten.length + ((u m).given - 1) := by
    rw [hgiven, offset]
    omega
  have hmark : (u m).given - 1 < (u m).rows.flatten.length := by
    have hsize : (u m).size = (u m).rows.flatten.length := rfl
    omega
  show Entry.mark (t.given - 1) t.rows = _
  rw [hrows, hsplit, rowsOf_split, rowsOf_split, hothers hpre, hothers hpost,
    Function.update_self, hnumber, Entry.mark_append_right, Entry.mark_append_left hmark]
  rfl

variable (hsources : ∀ i, Tallied (sources i) (lists i) (Shows i))
include hsources

theorem hasNext_apply (h : Presents Shows names n t) :
    ∃ n', (upon sources).hasNext n = .value (decide (t.given < t.size)) n'
      ∧ Presents Shows names n' t := by
  obtain ⟨n₁, u, hsettle, hjoined, hsettled⟩ := settle_joined hsources h
  have hpresents := hsettled.presents hjoined
  show ∃ n', hasNext Node.own (member sources) (fun _ => pure ()) n = _ ∧ _
  obtain ⟨rfl, hidle⟩ | ⟨pre, m, post, hreads, hfinal⟩ := hsettled
  · have hsize : t.size = 0 := hjoined.size_eq
    refine ⟨n₁, ?_, hpresents⟩
    have hcurrent : (Node.own.get n₁).current = none := hidle.current_eq
    simp only [hasNext, Act.bind_apply, hsettle, Field.read_apply, hcurrent, Act.pure_apply, hsize,
      Nat.not_lt_zero, decide_false]
  · obtain ⟨s, hask, hjoined'⟩ := ask_member hsources hjoined m
    have hcurrent : (Node.own.get n₁).current = some m := hreads.current_eq
    have hiff := hreads.size_le_iff hjoined ((hsources m).given_le (hjoined.shows m)) hfinal
    refine ⟨_, ?_, u, hjoined', .inr ⟨pre, m, post, hreads⟩⟩
    have hsame : decide ((u m).given < (u m).size) = decide (t.given < t.size) := by
      rw [decide_eq_decide, ← Nat.not_le, ← Nat.not_le, hiff]
    simp only [hasNext, Act.bind_apply, hsettle, Field.read_apply, hcurrent, hask, hsame]

theorem next_of_coming_none (h : Presents Shows names n t) (hnone : t.coming = none) :
    ∃ n', (upon sources).next n = .failure .ended n' ∧ Presents Shows names n' t := by
  obtain ⟨n₁, u, hsettle, hjoined, hsettled⟩ := settle_joined hsources h
  have hpresents := hsettled.presents hjoined
  show ∃ n', next Node.own (member sources) (fun _ => pure ()) n = _ ∧ _
  obtain ⟨-, hidle⟩ | ⟨pre, m, post, hreads, hfinal⟩ := hsettled
  · have hcurrent : (Node.own.get n₁).current = none := hidle.current_eq
    refine ⟨n₁, ?_, hpresents⟩
    simp only [next, Act.bind_apply, hsettle, Field.read_apply, hcurrent, Act.fail_apply]
  · have hle := (hsources m).given_le (hjoined.shows m)
    have hmember := (hreads.coming_eq_none_iff hjoined hle hfinal).mp hnone
    obtain ⟨s, hstep, hs⟩ := (hsources m).next_none (hjoined.shows m) hmember
    have hcurrent : (Node.own.get n₁).current = some m := hreads.current_eq
    have hwithin : (member sources m).next n₁ = .failure .ended ((Node.child m).set s n₁) :=
      Act.within_of (r := .error _) hstep
    refine ⟨_, ?_, u, hjoined.put hs, .inr ⟨pre, m, post, hreads⟩⟩
    simp only [next, Act.bind_apply, hsettle, Field.read_apply, hcurrent, hwithin]

theorem next_of_coming_some (hnodup : names.Nodup) (h : Presents Shows names n t) {x : α}
    (hx : t.coming = some x) :
    ∃ n', (upon sources).next n = .value x n' ∧ Presents Shows names n' t.passed := by
  obtain ⟨n₁, u, hsettle, hjoined, hsettled⟩ := settle_joined hsources h
  have hpresents := hsettled.presents hjoined
  show ∃ n', next Node.own (member sources) (fun _ => pure ()) n = _ ∧ _
  obtain ⟨rfl, hidle⟩ | ⟨pre, m, post, hreads, hfinal⟩ := hsettled
  · -- There are no members, hence no elements.
    have hsize : t.size = 0 := hjoined.size_eq
    have hnone := Tally.coming_eq_none_iff.mpr (hsize ▸ Nat.zero_le t.given)
    exact nomatch hx.symm.trans hnone
  · have hle := (hsources m).given_le (hjoined.shows m)
    have hsome : (u m).coming ≠ none := fun hmember =>
      nomatch hx.symm.trans ((hreads.coming_eq_none_iff hjoined hle hfinal).mpr hmember)
    obtain ⟨y, hy⟩ := Option.ne_none_iff_exists'.mp hsome
    obtain rfl : x = y := Option.some.inj (hx.symm.trans (hreads.coming_eq hjoined.rows_eq hy))
    obtain ⟨s, hstep, hs⟩ := (hsources m).next_some (hjoined.shows m) hy
    have hcurrent : (Node.own.get n₁).current = some m := hreads.current_eq
    have hwithin : (member sources m).next n₁ = .value x ((Node.child m).set s n₁) :=
      Act.within_of (r := .ok _) hstep
    refine ⟨_, ?_, presents_passed hnodup hjoined hreads hs⟩
    simp only [next, Act.bind_apply, hsettle, Field.read_apply, hcurrent, hwithin,
      Field.modify_apply, Act.pure_apply]
    rw [← hreads.current_eq]
    rfl

/-- Once its last element has been removed from the member that gave it, a chain shows so. -/
theorem presents_cleared (hnodup : names.Nodup) (hjoined : Joined Shows names n u t)
    (hplace : Idle n.self names u t ∨ ∃ pre m post, Reads n.self names u t pre m post)
    (hlast : n.self.lastUsed = some m) {s : τ m} (hs : Shows m s (u m).cleared) :
    Presents Shows names
      (Node.own.set { n.self with lastUsed := none } ((Node.child m).set s n)) t.cleared := by
  obtain ⟨hheld, pre, post, hsplit, hgiven⟩ := hjoined.last hlast
  have hpos := (hsources m).given_pos (hjoined.shows m) hheld
  have hle := (hsources m).given_le (hjoined.shows m)
  have hgivens : ∀ i, (Function.update u m (u m).cleared i).given = (u i).given :=
    update_congr Tally.given rfl
  have hsizes : ∀ i, (Function.update u m (u m).cleared i).size = (u i).size :=
    update_congr Tally.size (Tally.size_cleared _)
  have hrows := rows_cleared hnodup hjoined.rows_eq hsplit hgiven hpos hle
  refine ⟨Function.update u m (u m).cleared, ?_, ?_⟩
  · exact ⟨hjoined.members_eq, shows_put hjoined.shows hs, hrows, rfl, nofun⟩
  · obtain hidle | ⟨pre, m, post, hreads⟩ := hplace
    · have hsame : Idle n.self names _ t.cleared := hidle.congr rfl hgivens
      exact .inl ⟨hsame.current_eq, hsame.position_eq, hsame.given_eq, hsame.fresh⟩
    · have hsame : Reads n.self names _ t.cleared pre m post := hreads.congr rfl hgivens hsizes
      exact .inr ⟨pre, m, post, hsame.split, hsame.current_eq, hsame.position_eq,
        hsame.given_eq, hsame.fresh⟩

theorem remove_of_held (hnodup : names.Nodup) (h : Presents Shows names n t)
    (hheld : t.held = true) :
    ∃ n', (upon sources).remove n = .value () n' ∧ Presents Shows names n' t.cleared := by
  obtain ⟨u, hjoined, hplace⟩ := h
  obtain ⟨m, hlast⟩ := Option.isSome_iff_exists.mp (hjoined.held_eq ▸ hheld)
  obtain ⟨s, hremove, hs⟩ := (hsources m).remove (hjoined.shows m) (hjoined.last hlast).1
  have hown : (Node.own.get n).lastUsed = some m := hlast
  have hwithin : (member sources m).remove n = .value () ((Node.child m).set s n) :=
    Act.within_of (r := .ok _) hremove
  refine ⟨_, ?_, presents_cleared hsources hnodup hjoined hplace hlast hs⟩
  show remove Node.own (member sources) n = _
  simp only [remove, Act.bind_apply, Field.read_apply, hown, hwithin, Field.modify_apply]
  rfl

omit hsources in
theorem remove_of_not_held (h : Presents Shows names n t) (hheld : t.held = false) :
    (upon sources).remove n = .failure (.notMoved .remove false) n := by
  obtain ⟨u, hjoined, -⟩ := h
  have hown : (Node.own.get n).lastUsed = none := by
    apply Option.not_isSome_iff_eq_none.mp
    intro hsome
    exact Bool.false_ne_true (hheld.symm.trans (hjoined.held_eq.trans hsome))
  show remove Node.own (member sources) n = _
  simp only [remove, Act.bind_apply, Field.read_apply, hown, Act.fail_apply]

/-- A chain of sources that keep to their tallies keeps to its own. -/
theorem tallied_upon (hnodup : names.Nodup) :
    Tallied (upon sources) (fun n => names.flatMap fun i => lists i (n.below i))
      (Presents Shows names) where
  lists_eq := by
    rintro n t ⟨u, hjoined, -⟩
    rw [Tally.left, hjoined.rows_eq, rowsOf, List.map_flatMap, List.flatMap_def, List.flatMap_def,
      List.map_congr_left fun i _ => (hsources i).lists_eq (hjoined.shows i)]
    rfl
  given_le := by
    rintro n t ⟨u, hjoined, hidle | ⟨pre, m, post, hreads⟩⟩
    · rw [hidle.given_eq]
      exact Nat.zero_le _
    · have hle := (hsources m).given_le (hjoined.shows m)
      rw [hjoined.size_eq, hreads.split, hreads.given_eq, offset_append, offset_cons]
      omega
  given_pos := by
    rintro n t ⟨u, hjoined, -⟩ hheld
    obtain ⟨m, hlast⟩ := Option.isSome_iff_exists.mp (hjoined.held_eq ▸ hheld)
    obtain ⟨hmember, pre, post, -, hgiven⟩ := hjoined.last hlast
    have hpos := (hsources m).given_pos (hjoined.shows m) hmember
    omega
  hasNext := hasNext_apply hsources
  next_some h hx := next_of_coming_some hsources hnodup h hx
  next_none := next_of_coming_none hsources
  remove := remove_of_held hsources hnodup

end

end Cursors.Chain
