/-
  Cursors.Proofs.Chain.Splice
  ───────────────────────────
  **A CHAIN OF ROWS IS A ROW.**

  The members of a chain are leaves, or chains of their own.  If each of
  them follows a row of leaves, then the chain follows the row of all these
  leaves (`Spliceable.follows`).

  The chain and its row may turn at different times: a member that was asked
  before its turn has left some of its leaves already.  That does not show,
  since a leaf may be asked again, and its answer is its own affair.

      in line    the leaf in front of the row is that of the member in use
      beyond     the member in use has no leaves, and follows the last leaf

  A chain that has gone beyond its last leaf does not ask that leaf again,
  while a row does.  So either there is nothing to go on to behind the last
  leaf, or a leaf that has denied stays at its end.
-/
import Cursors.Proofs.Chain.Row

namespace Cursors.Splice

variable {N : Nat} {τ : Fin N → Type} {Λ α : Type}

/-! ## §1. Where a chain stands. -/

/-- If the last of some lists is empty, all of them are. -/
def Capped (lists : List (List Λ)) : Prop := lists.getLast? = some [] → lists.flatten = []

/-- The members of a chain follow rows that are made of some leaves. -/
structure Spliceable (leaf : Forward Λ α) (sources : (i : Fin N) → Forward (τ i) α)
    (Shows : (i : Fin N) → τ i → Row Λ → Prop) (names : List (Fin N))
    (leaves : Fin N → List Λ) : Prop where
  steady : leaf.Steady
  follows : ∀ i, Follows leaf (sources i) (Shows i)
  nodup : names.Nodup
  capped : leaf.Lasting ∨ Capped (names.map leaves)

/-- The members stand where their rows say. -/
structure Kept (Shows : (i : Fin N) → τ i → Row Λ → Prop) (names : List (Fin N))
    (leaves : Fin N → List Λ) (n : Node (Chain (Fin N)) τ) (u : Fin N → Row Λ) : Prop where
  members_eq : n.self.members = names
  shows : ∀ i, Shows i (n.below i) (u i)
  nil_iff : ∀ i, (u i).ahead = [] ↔ leaves i = []

/-- The leaf that gave the last element of the row is that of the member that gave it. -/
structure Owed (last : Option (Fin N)) (u : Fin N → Row Λ) (r : Row Λ) : Prop where
  of_none : last = none → r.giver = .nobody
  of_some : ∀ {j}, last = some j → ∃ s, (u j).touched = some s ∧ r.touched = some s

/-- The leaves ahead are those of the member in use, and then those of the members behind it. -/
structure InLine (leaves : Fin N → List Λ) (last : Option (Fin N)) (u : Fin N → Row Λ) (r : Row Λ)
    (m : Fin N) (post : List (Fin N)) : Prop where
  ahead_eq : r.ahead = (u m).ahead ++ post.flatMap leaves
  giver_eq : last = some m → r.giver = (u m).giver
  giver_ne : last ≠ some m → r.giver ≠ .front
  giver_of_nil : r.ahead = [] → r.giver = .nobody

/-- The chain has gone on from its last leaf to members that have none. -/
structure Beyond (leaf : Forward Λ α) (leaves : Fin N → List Λ) (r : Row Λ) (m : Fin N)
    (post : List (Fin N)) : Prop where
  lasting : leaf.Lasting
  leafless : leaves m = []
  leafless_post : post.flatMap leaves = []
  ahead_eq : ∃ s, r.ahead = [s] ∧ leaf.Spent s

/-- The chain uses the member `m`, after those in `pre` and before those in `post`. -/
structure At (leaf : Forward Λ α) (names : List (Fin N)) (leaves : Fin N → List Λ)
    (c : Chain (Fin N)) (u : Fin N → Row Λ) (r : Row Λ) (pre : List (Fin N)) (m : Fin N)
    (post : List (Fin N)) : Prop where
  split : names = pre ++ m :: post
  current_eq : c.current = some m
  position_eq : c.position = pre.length
  waits : ∀ i ∈ post, (u i).Waits leaf (leaves i)
  owed : Owed c.lastUsed u r
  front : InLine leaves c.lastUsed u r m post ∨ Beyond leaf leaves r m post

/-- The chain has not turned to a member yet. -/
structure Idle (leaf : Forward Λ α) (names : List (Fin N)) (leaves : Fin N → List Λ)
    (c : Chain (Fin N)) (u : Fin N → Row Λ) (r : Row Λ) : Prop where
  current_eq : c.current = none
  position_eq : c.position = 0
  lastUsed_eq : c.lastUsed = none
  waits : ∀ i ∈ names, (u i).Waits leaf (leaves i)
  row_eq : r = ⟨names.flatMap leaves, .nobody⟩

/-- The member in use is turned to the leaf to be used, and has more or is the last one. -/
structure Final (leaf : Forward Λ α) (u : Fin N → Row Λ) (m : Fin N) (post : List (Fin N)) :
    Prop where
  turned_eq : (u m).turned leaf = u m
  stocked_or : Row.stocked leaf (u m).ahead = true ∨ post = []

/-- The chain stands where the row says. -/
def Stands (leaf : Forward Λ α) (Shows : (i : Fin N) → τ i → Row Λ → Prop)
    (names : List (Fin N)) (leaves : Fin N → List Λ) (n : Node (Chain (Fin N)) τ) (r : Row Λ) :
    Prop :=
  ∃ u, Kept Shows names leaves n u
    ∧ (Idle leaf names leaves n.self u r ∨ ∃ pre m post, At leaf names leaves n.self u r pre m post)

/-- The chain stands where the row says, and has turned to the leaf to be used. -/
def Poised (leaf : Forward Λ α) (Shows : (i : Fin N) → τ i → Row Λ → Prop)
    (names : List (Fin N)) (leaves : Fin N → List Λ) (n : Node (Chain (Fin N)) τ) (r : Row Λ) :
    Prop :=
  ∃ u, Kept Shows names leaves n u
    ∧ (names = [] ∧ Idle leaf names leaves n.self u r
      ∨ ∃ pre m post, At leaf names leaves n.self u r pre m post ∧ Final leaf u m post)

section

variable {leaf : Forward Λ α} {Shows : (i : Fin N) → τ i → Row Λ → Prop}
  {names pre post rest : List (Fin N)} {leaves : Fin N → List Λ} {n : Node (Chain (Fin N)) τ}
  {c : Chain (Fin N)} {u : Fin N → Row Λ} {r : Row Λ} {m following : Fin N}
  {last : Option (Fin N)}

theorem Poised.stands (h : Poised leaf Shows names leaves n r) :
    Stands leaf Shows names leaves n r := by
  obtain ⟨u, hkept, ⟨-, hidle⟩ | ⟨pre, m, post, hat, -⟩⟩ := h
  · exact ⟨u, hkept, .inl hidle⟩
  · exact ⟨u, hkept, .inr ⟨pre, m, post, hat⟩⟩

/-- A member may move along its row. -/
theorem Kept.put (h : Kept Shows names leaves n u) {s : τ m} {v : Row Λ} (hs : Shows m s v)
    (hv : v.ahead = [] ↔ (u m).ahead = []) :
    Kept Shows names leaves ((Node.child m).set s n) (Function.update u m v) where
  members_eq := h.members_eq
  shows := Chain.shows_put h.shows hs
  nil_iff i := by
    by_cases him : i = m
    · subst him
      rw [Function.update_self, hv]
      exact h.nil_iff i
    · rw [Function.update_of_ne him]
      exact h.nil_iff i

/-- Where its members stand does not depend on what the chain keeps for itself. -/
theorem Kept.set_own (h : Kept Shows names leaves n u) (hc : c.members = n.self.members) :
    Kept Shows names leaves (Node.own.set c n) u :=
  ⟨hc.trans h.members_eq, h.shows, h.nil_iff⟩

/-- Closing a chain for changes does not move it. -/
theorem At.closed (h : At leaf names leaves c u r pre m post) :
    At leaf names leaves { c with locked := true } u r pre m post :=
  ⟨h.split, h.current_eq, h.position_eq, h.waits, h.owed, h.front⟩

/-- What becomes of the member in use does not matter to those behind it. -/
theorem At.waits_update (h : At leaf names leaves c u r pre m post) (hnodup : names.Nodup)
    (v : Row Λ) : ∀ i ∈ post, (Function.update u m v i).Waits leaf (leaves i) := by
  intro i hi
  rw [Chain.update_of_not_mem (Chain.not_mem_of_split hnodup h.split).2 i hi]
  exact h.waits i hi

/-! ## §2. The member in use is asked. -/

/-- The row of a member that was asked, in front of the other leaves. -/
def askedRow (leaf : Forward Λ α) (leaves : Fin N → List Λ) (u : Fin N → Row Λ) (r : Row Λ)
    (m : Fin N) (post : List (Fin N)) : Row Λ :=
  ⟨Row.turn leaf (u m).ahead ++ post.flatMap leaves, Row.leave leaf (u m).ahead r.giver⟩

theorem InLine.turned_askedRow (h : InLine leaves last u r m post) (hleaf : leaf.Steady) :
    (askedRow leaf leaves u r m post).turned leaf = r.turned leaf := by
  show Row.mk (Row.turn leaf (Row.turn leaf (u m).ahead ++ _))
    (Row.leave leaf (Row.turn leaf (u m).ahead ++ _) (Row.leave leaf (u m).ahead r.giver)) = _
  rw [Row.turn_turn_append hleaf, Row.leave_turn_append hleaf, ← h.ahead_eq]
  rfl

theorem InLine.asked (h : InLine leaves last u r m post) :
    InLine leaves last (Function.update u m ((u m).turned leaf)) (askedRow leaf leaves u r m post)
      m post where
  ahead_eq := by
    rw [Function.update_self]
    rfl
  giver_eq hlast := by
    rw [Function.update_self]
    exact congrArg (Row.leave leaf (u m).ahead) (h.giver_eq hlast)
  giver_ne hlast := by
    show Row.leave leaf (u m).ahead r.giver ≠ .front
    rw [Row.leave_of_ne_front (h.giver_ne hlast)]
    exact h.giver_ne hlast
  giver_of_nil hnil := by
    obtain ⟨hturn, hpost⟩ := List.append_eq_nil_iff.mp hnil
    have hr : r.ahead = [] := by
      rw [h.ahead_eq, Row.turn_eq_nil_iff.mp hturn, hpost]
      rfl
    show Row.leave leaf (u m).ahead r.giver = .nobody
    rw [h.giver_of_nil hr]
    exact Row.leave_nobody _

theorem InLine.owed_askedRow (h : InLine leaves last u r m post) (howed : Owed last u r)
    (hnil : (u m).ahead = [] → (u m).giver = .nobody) :
    Owed last (Function.update u m ((u m).turned leaf)) (askedRow leaf leaves u r m post) where
  of_none hlast := by
    show Row.leave leaf (u m).ahead r.giver = .nobody
    rw [howed.of_none hlast]
    exact Row.leave_nobody _
  of_some := by
    intro j hj
    obtain ⟨s, hs, hrow⟩ := howed.of_some hj
    by_cases hjm : j = m
    · subst hjm
      obtain ⟨s', hs'⟩ : ∃ s', ((u j).turned leaf).touched = some s' := Row.touched_turned hs
      refine ⟨s', ?_, ?_⟩
      · rw [Function.update_self]
        exact hs'
      · have hgiver := h.giver_eq hj
        unfold askedRow
        rw [hgiver, Row.touched_append]
        · exact hs'
        · intro hturn
          exact absurd (hnil (Row.turn_eq_nil_iff.mp hturn)) (Row.giver_ne_nobody hs)
    · have hfront := h.giver_ne fun hm => hjm (Option.some.inj (hj.symm.trans hm))
      refine ⟨s, ?_, ?_⟩
      · rw [Function.update_of_ne hjm]
        exact hs
      · unfold askedRow
        rw [Row.leave_of_ne_front hfront]
        exact (Row.touched_of_ne_front hfront _ _).trans hrow

end

section

variable {leaf : Forward Λ α} {sources : (i : Fin N) → Forward (τ i) α}
  {Shows : (i : Fin N) → τ i → Row Λ → Prop} {names pre post rest : List (Fin N)}
  {leaves : Fin N → List Λ} {n : Node (Chain (Fin N)) τ} {c : Chain (Fin N)} {u : Fin N → Row Λ}
  {r : Row Λ} {m following : Fin N}

/-- The member in use may be asked. -/
theorem Spliceable.asked (h : Spliceable leaf sources Shows names leaves)
    (hkept : Kept Shows names leaves n u) (hat : At leaf names leaves c u r pre m post) :
    ∃ r', r'.turned leaf = r.turned leaf
      ∧ At leaf names leaves c (Function.update u m ((u m).turned leaf)) r' pre m post := by
  have hnil := (h.follows m).giver_of_nil (hkept.shows m)
  obtain hline | hbeyond := hat.front
  · exact ⟨askedRow leaf leaves u r m post, hline.turned_askedRow h.steady, hat.split,
      hat.current_eq, hat.position_eq, hat.waits_update h.nodup _,
      hline.owed_askedRow hat.owed hnil, .inl hline.asked⟩
  · -- A member without leaves does not change.
    have hahead := (hkept.nil_iff m).mpr hbeyond.leafless
    have hsame : (u m).turned leaf = u m := by
      unfold Row.turned
      rw [hahead, hnil hahead]
      exact congrArg₂ Row.mk hahead.symm (hnil hahead).symm
    refine ⟨r, rfl, ?_⟩
    rw [hsame, Function.update_eq_self]
    exact hat

/-! ## §3. The chain turns to the next member. -/

theorem Owed.ne_of_nobody (h : Owed c.lastUsed u r) (hm : (u m).giver = .nobody) :
    c.lastUsed ≠ some m := by
  intro hlast
  obtain ⟨s, hs, -⟩ := h.of_some hlast
  exact Row.giver_ne_nobody hs hm

/-- A member whose turn it is to be used comes in line. -/
theorem inLine_of_waits (howed : Owed c.lastUsed u r) (hwaits : (u m).Waits leaf (leaves m))
    (hahead : r.ahead = (u m).ahead ++ post.flatMap leaves) (hfront : r.giver ≠ .front)
    (hnil : r.ahead = [] → r.giver = .nobody) : InLine leaves c.lastUsed u r m post where
  ahead_eq := hahead
  giver_eq hlast := absurd hlast (howed.ne_of_nobody hwaits.1)
  giver_ne _ := hfront
  giver_of_nil := hnil

theorem Owed.congr {r' : Row Λ} (h : Owed c.lastUsed u r) (htouched : r'.touched = r.touched)
    (hnobody : r.giver = .nobody → r'.giver = .nobody) : Owed c.lastUsed u r' where
  of_none hlast := hnobody (h.of_none hlast)
  of_some hj := by
    obtain ⟨s, hs, hrow⟩ := h.of_some hj
    exact ⟨s, hs, htouched.trans hrow⟩

/-- Behind the last leaf there are only members without leaves if leaves do not last. -/
theorem Capped.leafless (h : Capped (names.map leaves))
    (hsplit : names = pre ++ m :: following :: rest)
    (hrest : (following :: rest).flatMap leaves = []) : leaves m = [] := by
  have hlast : (names.map leaves).getLast? = some [] := by
    obtain ⟨j, hj⟩ := Option.ne_none_iff_exists'.mp
      (mt List.getLast?_eq_none_iff.mp (List.cons_ne_nil following rest))
    have hnames : names.getLast? = some j := by
      rw [hsplit, List.getLast?_append, List.getLast?_cons_cons, hj]
      rfl
    rw [List.getLast?_map, hnames, Option.map_some,
      List.flatMap_eq_nil_iff.mp hrest j (List.mem_of_getLast? hj)]
  have hall := h hlast
  rw [← List.flatMap_def] at hall
  exact List.flatMap_eq_nil_iff.mp hall m (by rw [hsplit]; simp)

theorem append_flatMap_eq_nil_iff (hkept : Kept Shows names leaves n u) :
    (u following).ahead ++ rest.flatMap leaves = []
      ↔ (following :: rest).flatMap leaves = [] := by
  rw [List.flatMap_cons, List.append_eq_nil_iff, List.append_eq_nil_iff, hkept.nil_iff]

/-- From a member without leaves the chain goes on to the next one. -/
theorem InLine.turn_of_leafless (hline : InLine leaves c.lastUsed u r m (following :: rest))
    (hleaf : leaf.Steady) (hkept : Kept Shows names leaves n u) (howed : Owed c.lastUsed u r)
    (hcoming : (u following).Waits leaf (leaves following)) (hahead : (u m).ahead = [])
    (hnobody : (u m).giver = .nobody) :
    ∃ r', r'.turned leaf = r.turned leaf ∧ Owed c.lastUsed u r'
      ∧ InLine leaves c.lastUsed u r' following rest := by
  have hfront := hline.giver_ne (howed.ne_of_nobody hnobody)
  have hrow : r.ahead = (following :: rest).flatMap leaves := by
    rw [hline.ahead_eq, hahead]
    rfl
  have howed' : Owed c.lastUsed u ⟨(u following).ahead ++ rest.flatMap leaves, r.giver⟩ :=
    howed.congr (Row.touched_of_ne_front hfront _ _) id
  refine ⟨_, ?_, howed', inLine_of_waits howed' hcoming rfl hfront fun hempty => ?_⟩
  · unfold Row.turned
    rw [Row.leave_of_ne_front hfront, Row.leave_of_ne_front hfront,
      Row.turn_append_congr hleaf hcoming.2, hrow]
    rfl
  · exact hline.giver_of_nil (hrow.trans ((append_flatMap_eq_nil_iff hkept).mp hempty))

/-- From the last leaf of a member, which has denied, the chain goes on to the leaves of others. -/
theorem InLine.turn_of_denied (hline : InLine leaves c.lastUsed u r m (following :: rest))
    (hleaf : leaf.Steady) (hkept : Kept Shows names leaves n u) (howed : Owed c.lastUsed u r)
    (hcoming : (u following).Waits leaf (leaves following)) {s : Λ} (hahead : (u m).ahead = [s])
    (hmore : leaf.more s = false) (hasked : leaf.asked s = s)
    (hrest : (following :: rest).flatMap leaves ≠ []) :
    ∃ r', r'.turned leaf = r.turned leaf ∧ Owed c.lastUsed u r'
      ∧ InLine leaves c.lastUsed u r' following rest := by
  have howed' : Owed c.lastUsed u ⟨(u following).ahead ++ rest.flatMap leaves, r.left⟩ :=
    howed.congr (Row.touched_left r _) Row.left_of_nobody
  refine ⟨_, ?_, howed', inLine_of_waits howed' hcoming rfl (Row.left_ne_front r) fun hempty => ?_⟩
  · obtain ⟨ahead, giver⟩ := r
    obtain rfl : ahead = s :: (following :: rest).flatMap leaves := by
      refine hline.ahead_eq.trans ?_
      rw [hahead]
      rfl
    unfold Row.turned
    rw [Row.leave_of_ne_front (Row.left_ne_front _), Row.turn_append_congr hleaf hcoming.2,
      Row.turn_cons_of_denied hmore hrest, Row.leave_cons_eq_left hmore hasked hrest]
    rfl
  · exact absurd ((append_flatMap_eq_nil_iff hkept).mp hempty) hrest

/-- From the last leaf of all, which has denied, the chain goes on to members without leaves. -/
theorem Spliceable.beyond (h : Spliceable leaf sources Shows names leaves)
    (hkept : Kept Shows names leaves n u) (hsplit : names = pre ++ m :: following :: rest)
    (hline : InLine leaves c.lastUsed u r m (following :: rest)) {s : Λ}
    (hahead : (u m).ahead = [s]) (hmore : leaf.more s = false) (hasked : leaf.asked s = s)
    (hrest : (following :: rest).flatMap leaves = []) : Beyond leaf leaves r following rest := by
  have hlasting : leaf.Lasting := by
    obtain hlasting | hcapped := h.capped
    · exact hlasting
    · have hleafless := (hkept.nil_iff m).mpr (hcapped.leafless hsplit hrest)
      exact nomatch hahead.symm.trans hleafless
  have hspent := h.steady.spent_asked hmore
  rw [hasked] at hspent
  obtain ⟨hleafless, hpost⟩ := List.append_eq_nil_iff.mp hrest
  refine ⟨hlasting, hleafless, hpost, s, ?_, hspent⟩
  rw [hline.ahead_eq, hahead, hrest]
  rfl

/-- Once the member in use has denied the chain may turn to the next one. -/
theorem Spliceable.turn (h : Spliceable leaf sources Shows names leaves)
    (hkept : Kept Shows names leaves n u)
    (hat : At leaf names leaves c u r pre m (following :: rest))
    (hturned : (u m).turned leaf = u m) (hdenied : Row.stocked leaf (u m).ahead = false) :
    ∃ r', r'.turned leaf = r.turned leaf
      ∧ At leaf names leaves { c with position := c.position + 1, current := some following } u r'
          (pre ++ [m]) following rest := by
  have hcoming := hat.waits following List.mem_cons_self
  suffices hfront : ∃ r', r'.turned leaf = r.turned leaf ∧ Owed c.lastUsed u r'
      ∧ (InLine leaves c.lastUsed u r' following rest ∨ Beyond leaf leaves r' following rest) by
    obtain ⟨r', hr', howed, hfront⟩ := hfront
    refine ⟨r', hr', ?_, rfl, ?_, fun i hi => hat.waits i (List.mem_cons_of_mem following hi),
      howed, hfront⟩
    · rw [hat.split, List.append_assoc]
      rfl
    · rw [List.length_append]
      exact congrArg (· + 1) hat.position_eq
  obtain hline | hbeyond := hat.front
  · obtain hahead | ⟨s, tail, hahead, hmore, -⟩ | ⟨s, hahead, hmore, hasked⟩ :=
      Row.turn_eq_self_cases (congrArg Row.ahead hturned)
    · have hnobody := (h.follows m).giver_of_nil (hkept.shows m) hahead
      obtain ⟨r', hr', howed, hline'⟩ :=
        hline.turn_of_leafless h.steady hkept hat.owed hcoming hahead hnobody
      exact ⟨r', hr', howed, .inl hline'⟩
    · rw [hahead] at hdenied
      exact nomatch hmore.symm.trans hdenied
    · by_cases hrest : (following :: rest).flatMap leaves = []
      · exact ⟨r, rfl, hat.owed,
          .inr (h.beyond hkept hat.split hline hahead hmore hasked hrest)⟩
      · obtain ⟨r', hr', howed, hline'⟩ :=
          hline.turn_of_denied h.steady hkept hat.owed hcoming hahead hmore hasked hrest
        exact ⟨r', hr', howed, .inl hline'⟩
  · obtain ⟨hleafless, hpost⟩ := List.append_eq_nil_iff.mp hbeyond.leafless_post
    exact ⟨r, rfl, hat.owed, .inr ⟨hbeyond.lasting, hleafless, hpost, hbeyond.ahead_eq⟩⟩

/-- A chain that has not turned to a member yet may turn to the first one. -/
theorem Spliceable.start (h : Spliceable leaf sources Shows (m :: rest) leaves)
    (hidle : Idle leaf (m :: rest) leaves c u r) :
    ∃ r', r'.turned leaf = r.turned leaf
      ∧ At leaf (m :: rest) leaves { c with current := some m, locked := true } u r' [] m rest := by
  have hcoming := hidle.waits m List.mem_cons_self
  have howed : Owed c.lastUsed u ⟨(u m).ahead ++ rest.flatMap leaves, .nobody⟩ :=
    ⟨fun _ => rfl, fun hj => nomatch hidle.lastUsed_eq.symm.trans hj⟩
  refine ⟨_, ?_, rfl, rfl, hidle.position_eq,
    fun i hi => hidle.waits i (List.mem_cons_of_mem m hi), howed,
    .inl (inLine_of_waits howed hcoming rfl (by simp) fun _ => rfl)⟩
  rw [hidle.row_eq]
  unfold Row.turned
  rw [Row.leave_nobody, Row.leave_nobody, Row.turn_append_congr h.steady hcoming.2]
  rfl

/-! ## §4. Settling. -/

/-- With the member to be used, the row is turned to the leaf to be used. -/
theorem At.turned_eq (hat : At leaf names leaves c u r pre m post) (hfinal : Final leaf u m post) :
    r.turned leaf = r := by
  obtain ⟨hturned, hstocked⟩ := hfinal
  obtain hline | hbeyond := hat.front
  · have hturn : Row.turn leaf (u m).ahead = (u m).ahead := congrArg Row.ahead hturned
    have hleave : Row.leave leaf (u m).ahead r.giver = r.giver := by
      by_cases hlast : c.lastUsed = some m
      · rw [hline.giver_eq hlast]
        exact congrArg Row.giver hturned
      · exact Row.leave_of_ne_front (hline.giver_ne hlast) _
    unfold Row.turned
    rw [hline.ahead_eq]
    obtain hmore | rfl := hstocked
    · rw [Row.turn_append_of_stocked hturn hmore, Row.leave_append_of_stocked hmore,
        ← hline.ahead_eq]
    · rw [List.flatMap_nil, List.append_nil, hturn, hleave, ← List.append_nil (u m).ahead]
      exact congrArg₂ Row.mk hline.ahead_eq.symm rfl
  · obtain ⟨s, hahead, hspent⟩ := hbeyond.ahead_eq
    obtain ⟨ahead, giver⟩ := r
    obtain rfl : ahead = [s] := hahead
    exact congrArg₂ Row.mk (congrArg (· :: []) (hbeyond.lasting.asked_eq hspent)) rfl

/-- The member to be used has more just if the leaf to be used has. -/
theorem Kept.stocked_eq (hkept : Kept Shows names leaves n u)
    (hat : At leaf names leaves c u r pre m post) (hfinal : Final leaf u m post) :
    Row.stocked leaf r.ahead = Row.stocked leaf (u m).ahead := by
  obtain hline | hbeyond := hat.front
  · rw [hline.ahead_eq]
    obtain hmore | rfl := hfinal.stocked_or
    · cases hahead : (u m).ahead with
      | nil =>
          rw [hahead] at hmore
          exact nomatch hmore
      | cons s tail => rfl
    · rw [List.flatMap_nil, List.append_nil]
  · obtain ⟨s, hahead, hspent⟩ := hbeyond.ahead_eq
    rw [hahead, (hkept.nil_iff m).mpr hbeyond.leafless]
    exact hbeyond.lasting.more_eq hspent

/-- A member is asked, and moves along its row. -/
theorem Spliceable.ask_member (h : Spliceable leaf sources Shows names leaves)
    (hkept : Kept Shows names leaves n u) (m : Fin N) :
    ∃ s, (Chain.member sources m).hasNext n
        = .value (Row.stocked leaf ((u m).turned leaf).ahead) ((Node.child m).set s n)
      ∧ Kept Shows names leaves ((Node.child m).set s n)
          (Function.update u m ((u m).turned leaf)) := by
  obtain ⟨s, hask, hs⟩ := (h.follows m).hasNext (hkept.shows m)
  exact ⟨s, Act.within_of (r := .ok _) hask, hkept.put hs Row.turned_ahead_eq_nil_iff⟩

theorem Spliceable.advance_apply (h : Spliceable leaf sources Shows names leaves) (steps : Nat)
    (hkept : Kept Shows names leaves n u) (hat : At leaf names leaves n.self u r pre m post)
    (hsteps : post.length < steps) :
    ∃ n', Chain.advance Node.own (Chain.member sources) steps n = .value () n'
      ∧ Poised leaf Shows names leaves n' (r.turned leaf) := by
  induction steps generalizing n u r pre m post with
  | zero => exact absurd hsteps (Nat.not_lt_zero _)
  | succ steps ih =>
      obtain ⟨s, hask, hkept'⟩ := h.ask_member hkept m
      obtain ⟨r', hr', hat'⟩ := h.asked hkept hat
      have hcurrent : (Node.own.get n).current = some m := hat.current_eq
      have hfollowing : (Node.own.get ((Node.child m).set s n)).members[
          (Node.own.get ((Node.child m).set s n)).position + 1]? = post.head? :=
        Chain.following_eq hkept.members_eq hat.split hat.position_eq
      have hturned : (Function.update u m ((u m).turned leaf) m).turned leaf
          = Function.update u m ((u m).turned leaf) m := by
        rw [Function.update_self]
        exact Row.turned_turned h.steady (u m)
      have hstocked : Row.stocked leaf (Function.update u m ((u m).turned leaf) m).ahead
          = Row.stocked leaf ((u m).turned leaf).ahead := by
        rw [Function.update_self]
      -- Once the member to be used is found, the row that was reached is the one looked for.
      have hfound : Final leaf (Function.update u m ((u m).turned leaf)) m post →
          Poised leaf Shows names leaves ((Node.child m).set s n) (r.turned leaf) := by
        intro hfinal
        have hrow := hat'.turned_eq hfinal
        rw [hr'] at hrow
        rw [hrow]
        exact ⟨_, hkept', .inr ⟨pre, m, post, hat', hfinal⟩⟩
      cases hmore : Row.stocked leaf ((u m).turned leaf).ahead with
      | true =>
          rw [hmore] at hask
          exact ⟨_, Chain.advance_of_more hcurrent hask,
            hfound ⟨hturned, .inl (hstocked.trans hmore)⟩⟩
      | false =>
          rw [hmore] at hask
          cases post with
          | nil =>
              exact ⟨_, Chain.advance_of_last hcurrent hask hfollowing, hfound ⟨hturned, .inr rfl⟩⟩
          | cons following rest =>
              obtain ⟨r'', hr'', hat''⟩ :=
                h.turn hkept' hat' hturned (hstocked.trans hmore)
              rw [Chain.advance_of_following hcurrent hask hfollowing, ← hr', ← hr'']
              exact ih (hkept'.set_own rfl) hat'' (Nat.lt_of_succ_lt_succ hsteps)

/-- A chain has members enough to turn to the one to be used. -/
theorem Spliceable.advance_members (h : Spliceable leaf sources Shows names leaves)
    (hkept : Kept Shows names leaves n u) (hat : At leaf names leaves n.self u r pre m post) :
    ∃ n', Chain.advance Node.own (Chain.member sources) names.length n = .value () n'
      ∧ Poised leaf Shows names leaves n' (r.turned leaf) := by
  apply h.advance_apply names.length hkept hat
  rw [hat.split, List.length_append, List.length_cons]
  omega

/-- Whether it was closed for changes before or not, a chain turns to the leaf to be used. -/
theorem Spliceable.settle_apply (h : Spliceable leaf sources Shows names leaves)
    (hn : Stands leaf Shows names leaves n r) :
    ∃ n', Chain.settle Node.own (Chain.member sources) (fun _ => pure ()) n = .value () n'
      ∧ Poised leaf Shows names leaves n' (r.turned leaf) := by
  obtain ⟨u, hkept, hplace⟩ := hn
  have hmembers := hkept.members_eq
  obtain hidle | ⟨pre, m, post, hat⟩ := hplace
  · cases names with
    | nil =>
        have hrow : r.turned leaf = r := by
          rw [hidle.row_eq]
          rfl
        rw [hrow]
        exact ⟨_, Chain.settle_of_nil hidle.current_eq hmembers, u, hkept.set_own rfl,
          .inl ⟨rfl, hidle.current_eq, hidle.position_eq, hidle.lastUsed_eq, hidle.waits,
            hidle.row_eq⟩⟩
    | cons first rest =>
        obtain ⟨r', hr', hat⟩ := h.start hidle
        rw [Chain.settle_of_first hidle.current_eq hmembers, ← hr']
        exact h.advance_members
          (hkept.set_own (c := { n.self with current := some first, locked := true }) rfl) hat
  · rw [Chain.settle_of_current hat.current_eq hmembers]
    exact h.advance_members (hkept.set_own (c := { n.self with locked := true }) rfl) hat.closed

/-! ## §5. The calls. -/

theorem Spliceable.hasNext_apply (h : Spliceable leaf sources Shows names leaves)
    (hn : Stands leaf Shows names leaves n r) :
    ∃ n', (Chain.upon sources).hasNext n
        = .value (Row.stocked leaf (r.turned leaf).ahead) n'
      ∧ Stands leaf Shows names leaves n' (r.turned leaf) := by
  obtain ⟨n₁, hsettle, hpoised⟩ := h.settle_apply hn
  have hstands := hpoised.stands
  show ∃ n', Chain.hasNext Node.own (Chain.member sources) (fun _ => pure ()) n = _ ∧ _
  obtain ⟨u, hkept, ⟨rfl, hidle⟩ | ⟨pre, m, post, hat, hfinal⟩⟩ := hpoised
  · have hcurrent : (Node.own.get n₁).current = none := hidle.current_eq
    have hrow : Row.stocked leaf (r.turned leaf).ahead = false := by
      rw [hidle.row_eq]
      rfl
    refine ⟨n₁, ?_, hstands⟩
    simp only [Chain.hasNext, Act.bind_apply, hsettle, Field.read_apply, hcurrent, Act.pure_apply,
      hrow]
  · obtain ⟨s, hask, hkept'⟩ := h.ask_member hkept m
    rw [hfinal.turned_eq, Function.update_eq_self] at hkept'
    rw [hfinal.turned_eq, ← hkept.stocked_eq hat hfinal] at hask
    have hcurrent : (Node.own.get n₁).current = some m := hat.current_eq
    refine ⟨_, ?_, u, hkept', .inr ⟨pre, m, post, hat⟩⟩
    simp only [Chain.hasNext, Act.bind_apply, hsettle, Field.read_apply, hcurrent, hask]

/-- Nothing comes of the row if the member to be used has no leaves. -/
theorem At.next_of_nil (hat : At leaf names leaves c u r pre m post) (hfinal : Final leaf u m post)
    (hnil : (u m).ahead = []) : r.next leaf = (.error .ended, r) := by
  obtain ⟨ahead, giver⟩ := r
  obtain hline | hbeyond := hat.front
  · obtain hmore | rfl := hfinal.stocked_or
    · rw [hnil] at hmore
      exact nomatch hmore
    · obtain rfl : ahead = [] := hline.ahead_eq.trans (by rw [hnil]; rfl)
      exact Row.next_nil giver
  · obtain ⟨s, hahead, hspent⟩ := hbeyond.ahead_eq
    obtain rfl : ahead = [s] := hahead
    rw [Row.next_of_error (hbeyond.lasting.reply_eq hspent), hbeyond.lasting.leaves_eq hspent]

/-- The leaf in front has given an element. -/
theorem At.given (hat : At leaf names leaves c u r pre m post) (hnodup : names.Nodup) (s : Λ)
    (tail : List Λ) :
    At leaf names leaves { c with lastUsed := some m }
      (Function.update u m ⟨s :: tail, .front⟩) ⟨s :: (tail ++ post.flatMap leaves), .front⟩
      pre m post where
  split := hat.split
  current_eq := hat.current_eq
  position_eq := hat.position_eq
  waits := hat.waits_update hnodup _
  owed := by
    refine ⟨nofun, ?_⟩
    intro j hj
    obtain rfl := Option.some.inj hj
    exact ⟨s, by rw [Function.update_self]; rfl, rfl⟩
  front := by
    refine .inl ⟨?_, fun _ => ?_, fun hlast => absurd rfl hlast, nofun⟩
    · rw [Function.update_self]
      rfl
    · rw [Function.update_self]

/-- The leaf in front has failed to give an element. -/
theorem At.failed (hat : At leaf names leaves c u r pre m post) (hnodup : names.Nodup)
    (hline : InLine leaves c.lastUsed u r m post) (s : Λ) (tail : List Λ) :
    At leaf names leaves c (Function.update u m ⟨s :: tail, (u m).giver⟩)
      ⟨s :: (tail ++ post.flatMap leaves), r.giver⟩ pre m post where
  split := hat.split
  current_eq := hat.current_eq
  position_eq := hat.position_eq
  waits := hat.waits_update hnodup _
  owed := by
    refine ⟨hat.owed.of_none, ?_⟩
    intro j hj
    obtain ⟨s₀, hs₀, hrow⟩ := hat.owed.of_some hj
    by_cases hjm : j = m
    · subst hjm
      obtain ⟨s', hs'⟩ := Row.touched_cons (Row.giver_ne_nobody hs₀) s
      refine ⟨s', ?_, ?_⟩
      · rw [Function.update_self]
        exact hs' tail
      · rw [hline.giver_eq hj]
        exact hs' _
    · refine ⟨s₀, ?_, ?_⟩
      · rw [Function.update_of_ne hjm]
        exact hs₀
      · have hfront := hline.giver_ne fun hm => hjm (Option.some.inj (hj.symm.trans hm))
        exact (Row.touched_of_ne_front hfront _ _).trans hrow
  front := by
    refine .inl ⟨?_, fun hlast => ?_, hline.giver_ne, nofun⟩
    · rw [Function.update_self]
      rfl
    · rw [Function.update_self]
      exact hline.giver_eq hlast

theorem Spliceable.next_apply (h : Spliceable leaf sources Shows names leaves)
    (hn : Stands leaf Shows names leaves n r) :
    ∃ n', (Chain.upon sources).next n = .of ((r.turned leaf).next leaf).1 n'
      ∧ Stands leaf Shows names leaves n' ((r.turned leaf).next leaf).2 := by
  obtain ⟨n₁, hsettle, hpoised⟩ := h.settle_apply hn
  have hstands := hpoised.stands
  generalize r.turned leaf = r at hpoised hstands
  show ∃ n', Chain.next Node.own (Chain.member sources) (fun _ => pure ()) n = _ ∧ _
  obtain ⟨u, hkept, ⟨rfl, hidle⟩ | ⟨pre, m, post, hat, hfinal⟩⟩ := hpoised
  · have hcurrent : (Node.own.get n₁).current = none := hidle.current_eq
    obtain rfl := hidle.row_eq
    refine ⟨n₁, ?_, hstands⟩
    simp only [Chain.next, Act.bind_apply, hsettle, Field.read_apply, hcurrent, Act.fail_apply]
    rfl
  · have hcurrent : (Node.own.get n₁).current = some m := hat.current_eq
    obtain ⟨s', hstep, hs'⟩ := (h.follows m).next (hkept.shows m) hfinal.turned_eq
    have hkept' := hkept.put hs' Row.next_ahead_eq_nil_iff
    have hwithin : (Chain.member sources m).next n₁
        = .of ((u m).next leaf).1 ((Node.child m).set s' n₁) := Act.within_of hstep
    cases hahead : (u m).ahead with
    | nil =>
        have hmember : (u m).next leaf = (.error .ended, u m) := by
          unfold Row.next
          rw [hahead]
        rw [hmember, Function.update_eq_self] at hkept'
        rw [hmember] at hwithin
        rw [hat.next_of_nil hfinal hahead]
        refine ⟨_, ?_, u, hkept', .inr ⟨pre, m, post, hat⟩⟩
        simp only [Chain.next, Act.bind_apply, hsettle, Field.read_apply, hcurrent, hwithin]
        rfl
    | cons s tail =>
        obtain hline | hbeyond := hat.front
        · have hmember : u m = ⟨s :: tail, (u m).giver⟩ := congrArg (Row.mk · (u m).giver) hahead
          have hrow : r = ⟨s :: (tail ++ post.flatMap leaves), r.giver⟩ :=
            congrArg (Row.mk · r.giver) (hline.ahead_eq.trans (by rw [hahead]; rfl))
          cases hreply : leaf.next.reply s with
          | ok x =>
              rw [hmember, Row.next_of_ok hreply] at hwithin hkept'
              rw [hrow, Row.next_of_ok hreply]
              refine ⟨_, ?_, _, hkept'.set_own (c := { n₁.self with lastUsed := some m }) rfl,
                .inr ⟨pre, m, post, hat.given h.nodup _ tail⟩⟩
              simp only [Chain.next, Act.bind_apply, hsettle, Field.read_apply, hcurrent, hwithin,
                Outcome.of, Field.modify_apply, Act.pure_apply]
              rw [← hat.current_eq]
              rfl
          | error e =>
              rw [hmember, Row.next_of_error hreply] at hwithin hkept'
              rw [hrow, Row.next_of_error hreply]
              refine ⟨_, ?_, _, hkept', .inr ⟨pre, m, post, hat.failed h.nodup hline _ tail⟩⟩
              simp only [Chain.next, Act.bind_apply, hsettle, Field.read_apply, hcurrent, hwithin,
                Outcome.of]
        · rw [(hkept.nil_iff m).mpr hbeyond.leafless] at hahead
          cases hahead

section

variable {j : Fin N} {s : Λ} {last : Option (Fin N)}

/-- The member in use was asked to remove the last element. -/
theorem InLine.removed_self (hline : InLine leaves (some m) u r m post)
    (hnil : (u m).ahead = [] → (u m).giver = .nobody) (hm : (u m).touched = some s)
    (hlast : last = some m ∨ ∃ a, leaf.remove.reply s = .ok a) :
    InLine leaves last (Function.update u m ((u m).remove leaf).2) (r.remove leaf).2 m post := by
  have hrow : r = ⟨(u m).ahead ++ post.flatMap leaves, (u m).giver⟩ :=
    congrArg₂ Row.mk hline.ahead_eq (hline.giver_eq rfl)
  have hempty : (u m).ahead ≠ [] := fun hempty => Row.giver_ne_nobody hm (hnil hempty)
  rw [hrow, Row.remove_append (fun h => absurd h hempty)]
  refine ⟨?_, fun _ => ?_, fun hne => ?_, fun happend => ?_⟩
  · rw [Function.update_self]
  · rw [Function.update_self]
  · obtain hlast | ⟨a, hok⟩ := hlast
    · exact absurd hlast hne
    · show ((u m).remove leaf).2.giver ≠ .front
      rw [Row.giver_removed_of_ok hm hok]
      simp
  · exact absurd (Row.remove_ahead_eq_nil_iff.mp (List.append_eq_nil_iff.mp happend).1) hempty

/-- Another member was asked to remove the last element. -/
theorem InLine.removed_ne (hline : InLine leaves (some j) u r m post) (hjm : j ≠ m)
    (hr : r.touched = some s) (hlast : last ≠ some m) :
    InLine leaves last (Function.update u j ((u j).remove leaf).2) (r.remove leaf).2 m post := by
  have hfront := hline.giver_ne fun hm => hjm (Option.some.inj hm)
  refine ⟨?_, fun hm => absurd hm hlast, fun _ => Row.giver_removed_ne_front hfront,
    fun hempty => ?_⟩
  · rw [Row.ahead_removed_of_ne_front hfront, Function.update_of_ne (Ne.symm hjm)]
    exact hline.ahead_eq
  · have hahead := Row.remove_ahead_eq_nil_iff.mp hempty
    exact absurd (hline.giver_of_nil hahead) (Row.giver_ne_nobody hr)

/-- Behind the last leaf that leaf, or one before it, was asked to remove the last element. -/
theorem Beyond.removed (hbeyond : Beyond leaf leaves r m post) (hleaf : leaf.Steady)
    (hr : r.touched = some s) : Beyond leaf leaves (r.remove leaf).2 m post := by
  refine ⟨hbeyond.lasting, hbeyond.leafless, hbeyond.leafless_post, ?_⟩
  obtain ⟨s', hahead, hspent⟩ := hbeyond.ahead_eq
  obtain ⟨xs, rfl⟩ | hbehind := Row.touched_eq_some_iff.mp hr
  · obtain ⟨rfl, rfl⟩ := List.cons.inj hahead
    exact ⟨_, rfl, hleaf.spent_removed hspent⟩
  · rw [Row.remove_of_behind hbehind]
    exact ⟨s', hahead, hspent⟩

/-- The leaf that gave the last element was asked to remove it. -/
theorem At.removed (hat : At leaf names leaves c u r pre m post) (hleaf : leaf.Steady)
    (hnil : (u m).ahead = [] → (u m).giver = .nobody) (hlast : c.lastUsed = some j)
    (hj : (u j).touched = some s) (hr : r.touched = some s)
    (hreply : (∃ a, leaf.remove.reply s = .ok a ∧ last = none)
      ∨ ∃ e, leaf.remove.reply s = .error e ∧ last = some j) :
    At leaf names leaves { c with lastUsed := last }
      (Function.update u j ((u j).remove leaf).2) (r.remove leaf).2 pre m post where
  split := hat.split
  current_eq := hat.current_eq
  position_eq := hat.position_eq
  waits i hi := by
    have hij : i ≠ j := by
      rintro rfl
      exact Row.giver_ne_nobody hj (hat.waits i hi).1
    rw [Function.update_of_ne hij]
    exact hat.waits i hi
  owed := by
    obtain ⟨a, hok, rfl⟩ | ⟨e, herror, rfl⟩ := hreply
    · exact ⟨fun _ => Row.giver_removed_of_ok hr hok, nofun⟩
    · refine ⟨nofun, ?_⟩
      intro i hi
      obtain rfl := Option.some.inj hi
      refine ⟨_, ?_, Row.touched_removed_of_error hr herror⟩
      rw [Function.update_self]
      exact Row.touched_removed_of_error hj herror
  front := by
    obtain hline | hbeyond := hat.front
    · rw [hlast] at hline
      by_cases hjm : j = m
      · subst hjm
        exact .inl (hline.removed_self hnil hj
          (hreply.symm.imp (fun ⟨_, _, hlast⟩ => hlast) fun ⟨a, hok, _⟩ => ⟨a, hok⟩))
      · refine .inl (hline.removed_ne hjm hr ?_)
        obtain ⟨a, -, rfl⟩ | ⟨e, -, rfl⟩ := hreply
        · exact nofun
        · exact fun hm => hjm (Option.some.inj hm)
    · exact .inr (hbeyond.removed hleaf hr)

end

theorem Spliceable.remove_apply (h : Spliceable leaf sources Shows names leaves)
    (hn : Stands leaf Shows names leaves n r) :
    ∃ n', (Chain.upon sources).remove n = .of (r.remove leaf).1 n'
      ∧ Stands leaf Shows names leaves n' (r.remove leaf).2 := by
  show ∃ n', Chain.remove Node.own (Chain.member sources) n = _ ∧ _
  obtain ⟨u, hkept, hplace⟩ := id hn
  cases hlast : n.self.lastUsed with
  | none =>
      have hgiver : r.giver = .nobody := by
        obtain hidle | ⟨pre, m, post, hat⟩ := hplace
        · rw [hidle.row_eq]
        · exact hat.owed.of_none hlast
      rw [Row.remove_of_nobody hgiver]
      have hown : (Node.own.get n).lastUsed = none := hlast
      refine ⟨n, ?_, hn⟩
      simp only [Chain.remove, Act.bind_apply, Field.read_apply, hown, Act.fail_apply]
      rfl
  | some j =>
      obtain hidle | ⟨pre, m, post, hat⟩ := hplace
      · rw [hidle.lastUsed_eq] at hlast
        cases hlast
      · obtain ⟨s, hj, hr⟩ := hat.owed.of_some hlast
        have hnil := (h.follows m).giver_of_nil (hkept.shows m)
        obtain ⟨s', hremove, hs'⟩ := (h.follows j).remove (hkept.shows j) (Row.giver_ne_nobody hj)
        have hkept' := hkept.put hs' Row.remove_ahead_eq_nil_iff
        have hown : (Node.own.get n).lastUsed = some j := hlast
        have hwithin : (Chain.member sources j).remove n
            = .of (leaf.remove.reply s) ((Node.child j).set s' n) := by
          rw [← Row.remove_fst_of_touched hj]
          exact Act.within_of hremove
        rw [Row.remove_fst_of_touched hr]
        cases hreply : leaf.remove.reply s with
        | ok a =>
            rw [hreply] at hwithin
            refine ⟨_, ?_, _, hkept'.set_own (c := { n.self with lastUsed := none }) rfl,
              .inr ⟨pre, m, post, hat.removed h.steady hnil hlast hj hr (.inl ⟨a, hreply, rfl⟩)⟩⟩
            simp only [Chain.remove, Act.bind_apply, Field.read_apply, hown, hwithin, Outcome.of,
              Field.modify_apply]
            rfl
        | error e =>
            rw [hreply] at hwithin
            have hat' := hat.removed h.steady hnil hlast hj hr (.inr ⟨e, hreply, rfl⟩)
            rw [← hlast] at hat'
            refine ⟨_, ?_, _, hkept', .inr ⟨pre, m, post, hat'⟩⟩
            simp only [Chain.remove, Act.bind_apply, Field.read_apply, hown, hwithin, Outcome.of]

/-- **A chain of sources that follow rows of leaves follows the row of all these leaves.** -/
theorem Spliceable.follows_upon (h : Spliceable leaf sources Shows names leaves) :
    Follows leaf (Chain.upon sources) (Stands leaf Shows names leaves) where
  giver_of_nil := by
    rintro n r ⟨u, -, hidle | ⟨pre, m, post, hat⟩⟩ hnil
    · rw [hidle.row_eq]
    · obtain hline | hbeyond := hat.front
      · exact hline.giver_of_nil hnil
      · obtain ⟨s, hahead, -⟩ := hbeyond.ahead_eq
        exact nomatch hnil.symm.trans hahead
  hasNext := h.hasNext_apply
  next := by
    intro n r hn hturned
    have hnext := h.next_apply hn
    rwa [hturned] at hnext
  remove hn _ := h.remove_apply hn

/-- Each call of such a chain comes to what the row answers. -/
theorem Spliceable.obeys (h : Spliceable leaf sources Shows names leaves) :
    Obeys (Pull.ask (Chain.upon sources)) (fun _ => ()) (fun call r => Row.respond leaf r call)
      (fun _ => ()) (Stands leaf Shows names leaves) where
  look_eq _ := rfl
  asked := by
    intro n r hn call
    cases call with
    | hasNext =>
        obtain ⟨n', hask, hn'⟩ := h.hasNext_apply hn
        exact ⟨n', Pull.ask_hasNext_of (r := .ok _) hask, hn'⟩
    | next =>
        obtain ⟨n', hnext, hn'⟩ := h.next_apply hn
        exact ⟨n', Pull.ask_next_of hnext, hn'⟩
    | remove =>
        obtain ⟨n', hremove, hn'⟩ := h.remove_apply hn
        exact ⟨n', Pull.ask_remove_of hremove, hn'⟩

end

end Cursors.Splice
