/-
  Cursors.Proofs.Text.Pattern
  ───────────────────────────
  **WHAT A PATTERN STANDS FOR.**

  `Reads p cs notes` says that the pattern can be read as `cs`, with these
  notes of its groups, by one rule for each kind of pattern and without any
  order of preference.  Laying a pattern on a text tries nothing else and
  leaves nothing out:

      lay_eq_some     what suits is a reading of the front of the text
      lay_eq_none     if nothing suits, no reading of the front does
      read?_eq_some   a whole text is read if it can be, in a possible way
      search?         the place found is the first one

  Where a text can be read in one way only, the order of preference makes
  no difference.
-/
import Mathlib.Data.List.Basic
import Cursors.Text.Pattern

namespace Cursors.Text

namespace Pattern

variable {β : Type}

/-! ## §1. Readings. -/

/-- The texts that a pattern stands for, with the notes of its groups. -/
inductive Reads : Pattern → List Char → List (Option (List Char)) → Prop where
  | literal (cs : List Char) : Reads (literal cs) cs []
  | run {inClass : Char → Bool} {atLeast : Nat} {cs : List Char}
      (hclass : ∀ c ∈ cs, inClass c = true) (hlength : atLeast ≤ cs.length) :
      Reads (run inClass atLeast) cs []
  | seq {p q : Pattern} {cs ds : List Char} {ns ms : List (Option (List Char))}
      (hp : Reads p cs ns) (hq : Reads q ds ms) : Reads (seq p q) (cs ++ ds) (ns ++ ms)
  | there {p : Pattern} {cs : List Char} {ns : List (Option (List Char))} (hp : Reads p cs ns) :
      Reads (optional p) cs ns
  | leftOut {p : Pattern} : Reads (optional p) [] (List.replicate p.groups none)
  | group {p : Pattern} {cs : List Char} {ns : List (Option (List Char))} (hp : Reads p cs ns) :
      Reads (group p) cs (some cs :: ns)

/-- The way in which a pattern fits the front of a text is a reading. -/
structure Fits (p : Pattern) (text : List Char) (fit : Fit) : Prop where
  text_eq : text = fit.taken ++ fit.rest
  reads : Reads p fit.taken fit.notes

/-! ### Readings by kind of pattern. -/

section

variable {p q : Pattern} {cs ds : List Char} {ns : List (Option (List Char))}

theorem reads_literal_iff : Reads (literal cs) ds ns ↔ ds = cs ∧ ns = [] := by
  constructor
  · intro h
    cases h
    exact ⟨rfl, rfl⟩
  · rintro ⟨rfl, rfl⟩
    exact .literal ds

theorem reads_run_iff {inClass : Char → Bool} {atLeast : Nat} :
    Reads (run inClass atLeast) cs ns
      ↔ (∀ c ∈ cs, inClass c = true) ∧ atLeast ≤ cs.length ∧ ns = [] := by
  constructor
  · intro h
    cases h with
    | run hclass hlength => exact ⟨hclass, hlength, rfl⟩
  · rintro ⟨hclass, hlength, rfl⟩
    exact .run hclass hlength

theorem reads_seq_iff :
    Reads (seq p q) cs ns ↔ ∃ cs₁ cs₂ ns₁ ns₂, cs = cs₁ ++ cs₂ ∧ ns = ns₁ ++ ns₂
      ∧ Reads p cs₁ ns₁ ∧ Reads q cs₂ ns₂ := by
  constructor
  · intro h
    cases h with
    | seq hp hq => exact ⟨_, _, _, _, rfl, rfl, hp, hq⟩
  · rintro ⟨cs₁, cs₂, ns₁, ns₂, rfl, rfl, hp, hq⟩
    exact .seq hp hq

theorem reads_optional_iff :
    Reads (optional p) cs ns
      ↔ Reads p cs ns ∨ (cs = [] ∧ ns = List.replicate p.groups none) := by
  constructor
  · intro h
    cases h with
    | there hp => exact .inl hp
    | leftOut => exact .inr ⟨rfl, rfl⟩
  · rintro (hp | ⟨rfl, rfl⟩)
    · exact .there hp
    · exact .leftOut

theorem reads_group_iff :
    Reads (group p) cs ns ↔ ∃ ms, ns = some cs :: ms ∧ Reads p cs ms := by
  constructor
  · intro h
    cases h with
    | group hp => exact ⟨_, rfl, hp⟩
  · rintro ⟨ms, rfl, hp⟩
    exact .group hp

end

/-! ## §2. Laying tries readings only, and all of them. -/

section

variable {inClass : Char → Bool} {suits : List Char → List Char → Option β} {b : β}

theorem layRun_eq_some {taken text : List Char} (h : layRun inClass suits taken text = some b) :
    ∃ cs rest, text = cs ++ rest ∧ (∀ c ∈ cs, inClass c = true)
      ∧ suits (taken.reverse ++ cs) rest = some b := by
  induction text generalizing taken with
  | nil => exact ⟨[], [], rfl, List.forall_mem_nil _, by rwa [List.append_nil]⟩
  | cons c text ih =>
      have hnone : suits taken.reverse (c :: text) = some b →
          ∃ cs rest, c :: text = cs ++ rest ∧ (∀ d ∈ cs, inClass d = true)
            ∧ suits (taken.reverse ++ cs) rest = some b := by
        intro hsuits
        exact ⟨[], c :: text, rfl, List.forall_mem_nil _, by rwa [List.append_nil]⟩
      unfold layRun at h
      split at h
      next hc =>
        split at h
        next b' hlonger =>
          obtain rfl : b' = b := Option.some.inj h
          obtain ⟨cs, rest, rfl, hcs, hsuits⟩ := ih hlonger
          refine ⟨c :: cs, rest, rfl, List.forall_mem_cons.mpr ⟨hc, hcs⟩, ?_⟩
          rwa [List.reverse_cons, List.append_assoc] at hsuits
        next => exact hnone h
      next => exact hnone h

theorem layRun_eq_none {taken text : List Char} (h : layRun inClass suits taken text = none)
    {cs rest : List Char} (htext : text = cs ++ rest) (hcs : ∀ c ∈ cs, inClass c = true) :
    suits (taken.reverse ++ cs) rest = none := by
  induction text generalizing taken cs with
  | nil =>
      obtain ⟨rfl, rfl⟩ := List.append_eq_nil_iff.mp htext.symm
      rwa [List.append_nil]
  | cons c text ih =>
      unfold layRun at h
      cases cs with
      | nil =>
          obtain rfl : c :: text = rest := htext
          rw [List.append_nil]
          split at h
          · split at h
            · exact nomatch h
            · exact h
          · exact h
      | cons d cs =>
          obtain ⟨rfl, rfl⟩ := List.cons.inj htext
          rw [if_pos (hcs c List.mem_cons_self)] at h
          split at h
          · exact nomatch h
          next hlonger =>
            have hsuits := ih hlonger rfl fun e he => hcs e (List.mem_cons_of_mem c he)
            rwa [List.reverse_cons, List.append_assoc] at hsuits

end

variable {p : Pattern} {text : List Char} {suits : Fit → Option β}

/-- What suits is a reading of the front of the text. -/
theorem lay_eq_some {b : β} (h : p.lay text suits = some b) :
    ∃ fit, Fits p text fit ∧ suits fit = some b := by
  -- The induction follows the pattern; what suits a part depends on the parts behind it.
  induction p generalizing text suits with
  | literal cs =>
      unfold lay at h
      split at h
      next rest hrest =>
        exact ⟨_, ⟨(List.append_eq_of_isPrefixOf?_eq_some hrest).symm, .literal cs⟩, h⟩
      next => exact nomatch h
  | run inClass atLeast =>
      obtain ⟨cs, rest, rfl, hcs, hsuits⟩ := layRun_eq_some h
      rw [List.reverse_nil, List.nil_append] at hsuits
      split at hsuits
      next hlength => exact ⟨_, ⟨rfl, .run hcs hlength⟩, hsuits⟩
      next => exact nomatch hsuits
  | seq first second ihfirst ihsecond =>
      obtain ⟨a, ⟨rfl, hfirst⟩, hmore⟩ := ihfirst h
      obtain ⟨c, ⟨hrest, hsecond⟩, hsuits⟩ := ihsecond hmore
      refine ⟨_, ⟨?_, .seq hfirst hsecond⟩, hsuits⟩
      rw [hrest, List.append_assoc]
  | optional part ih =>
      unfold lay at h
      split at h
      next b' hpart =>
        obtain rfl : b' = b := Option.some.inj h
        obtain ⟨fit, ⟨rfl, hreads⟩, hsuits⟩ := ih hpart
        exact ⟨fit, ⟨rfl, .there hreads⟩, hsuits⟩
      next => exact ⟨_, ⟨rfl, .leftOut⟩, h⟩
  | group part ih =>
      obtain ⟨a, ⟨rfl, hreads⟩, hsuits⟩ := ih h
      exact ⟨{ a with notes := some a.taken :: a.notes }, ⟨rfl, .group hreads⟩, hsuits⟩

/-- If nothing suits, no reading of the front of the text does. -/
theorem lay_eq_none (h : p.lay text suits = none) {fit : Fit} (hfit : Fits p text fit) :
    suits fit = none := by
  induction p generalizing text suits fit with
  | literal cs =>
      obtain ⟨taken, rest, notes⟩ := fit
      obtain ⟨htext, hreads⟩ := hfit
      obtain ⟨rfl, rfl⟩ := reads_literal_iff.mp hreads
      have hrest : taken.isPrefixOf? text = some rest :=
        List.isPrefixOf?_eq_some_iff_append_eq.mpr htext.symm
      simpa only [lay, hrest] using h
  | run inClass atLeast =>
      obtain ⟨taken, rest, notes⟩ := fit
      obtain ⟨htext, hreads⟩ := hfit
      obtain ⟨hclass, hlength, rfl⟩ := reads_run_iff.mp hreads
      have hsuits := layRun_eq_none h htext hclass
      rwa [List.reverse_nil, List.nil_append, if_pos hlength] at hsuits
  | seq first second ihfirst ihsecond =>
      obtain ⟨taken, rest, notes⟩ := fit
      obtain ⟨htext, hreads⟩ := hfit
      obtain ⟨cs, ds, ns, ms, rfl, rfl, hfirst, hsecond⟩ := reads_seq_iff.mp hreads
      have hfitfirst : Fits first text ⟨cs, ds ++ rest, ns⟩ :=
        ⟨htext.trans (List.append_assoc cs ds rest), hfirst⟩
      have hfitsecond : Fits second (ds ++ rest) ⟨ds, rest, ms⟩ := ⟨rfl, hsecond⟩
      exact ihsecond (ihfirst h hfitfirst) hfitsecond
  | optional part ih =>
      unfold lay at h
      split at h
      next => exact nomatch h
      next hpart =>
        obtain ⟨taken, rest, notes⟩ := fit
        obtain ⟨htext, hreads⟩ := hfit
        obtain hthere | ⟨rfl, rfl⟩ := reads_optional_iff.mp hreads
        · exact ih hpart ⟨htext, hthere⟩
        · rw [htext] at h
          exact h
  | group part ih =>
      obtain ⟨taken, rest, notes⟩ := fit
      obtain ⟨htext, hreads⟩ := hfit
      obtain ⟨ms, hnotes, hpart⟩ := reads_group_iff.mp hreads
      obtain rfl : notes = some taken :: ms := hnotes
      have hfitpart : Fits part text ⟨taken, rest, ms⟩ := ⟨htext, hpart⟩
      exact ih h hfitpart

/-! ## §3. Whole texts. -/

section

variable {notes : List (Option (List Char))}

theorem reads_of_read? (h : p.read? text = some notes) : Reads p text notes := by
  obtain ⟨⟨taken, rest, ns⟩, ⟨rfl, hreads⟩, hsuits⟩ := lay_eq_some h
  cases rest with
  | nil =>
      obtain rfl : ns = notes := Option.some.inj hsuits
      rwa [List.append_nil]
  | cons c rest => exact nomatch hsuits

theorem not_reads_of_read? (h : p.read? text = none) : ¬ Reads p text notes := by
  intro hreads
  have hfit : Fits p text ⟨text, [], notes⟩ := ⟨(List.append_nil text).symm, hreads⟩
  exact nomatch lay_eq_none h hfit

/-- Where a text can be read in one way only, it is read so. -/
theorem read?_eq_some_iff (hunique : ∀ ns, Reads p text ns → Reads p text notes → ns = notes) :
    p.read? text = some notes ↔ Reads p text notes := by
  constructor
  · exact reads_of_read?
  · intro hreads
    cases hread : p.read? text with
    | none => exact absurd hreads (not_reads_of_read? hread)
    | some ns => rw [hunique ns (reads_of_read? hread) hreads]

/-- A run gives back what the next part needs. -/
example : (seq (group (run (· != 'c') 1)) (literal ['b'])).read? "abab".toList
    = some [some "aba".toList] := by decide

end

/-! ## §4. Searching. -/

/-- The first place in a text where a pattern fits. -/
structure FirstFit (p : Pattern) (text before : List Char) (fit : Fit) : Prop where
  text_eq : text = before ++ (fit.taken ++ fit.rest)
  reads : Reads p fit.taken fit.notes
  first : ∀ {before' rest' : List Char} {fit' : Fit}, text = before' ++ rest' →
    Fits p rest' fit' → before.length ≤ before'.length

theorem not_fits_of_lay {fit : Fit} (h : p.lay text some = none) : ¬ Fits p text fit := by
  intro hfit
  exact nomatch lay_eq_none h hfit

theorem firstFit_of_search? {before : List Char} {fit : Fit}
    (h : p.search? text = some (before, fit)) : FirstFit p text before fit := by
  have hhere : ∀ {text : List Char} {fit : Fit}, p.lay text some = some fit →
      FirstFit p text [] fit := by
    intro text fit hlay
    obtain ⟨fit', ⟨htext, hreads⟩, hsuits⟩ := lay_eq_some hlay
    obtain rfl : fit' = fit := Option.some.inj hsuits
    exact ⟨htext, hreads, fun _ _ => Nat.zero_le _⟩
  induction text generalizing before with
  | nil =>
      obtain ⟨fit', hlay, heq⟩ := Option.map_eq_some_iff.mp h
      obtain ⟨rfl, rfl⟩ := Prod.mk.inj heq
      exact hhere hlay
  | cons c text ih =>
      unfold search? at h
      split at h
      next fit' hlay =>
        obtain ⟨rfl, rfl⟩ := Prod.mk.inj (Option.some.inj h)
        exact hhere hlay
      next hlay =>
        obtain ⟨⟨before', fit'⟩, hsearch, heq⟩ := Option.map_eq_some_iff.mp h
        obtain ⟨rfl, rfl⟩ := Prod.mk.inj heq
        have hrest := ih hsearch
        refine ⟨congrArg (c :: ·) hrest.text_eq, hrest.reads, ?_⟩
        intro before'' rest' fit'' htext hfit
        cases before'' with
        | nil =>
            obtain rfl : c :: text = rest' := htext
            exact absurd hfit (not_fits_of_lay hlay)
        | cons d before'' => exact Nat.succ_le_succ (hrest.first (List.cons.inj htext).2 hfit)

theorem not_fits_of_search? (h : p.search? text = none) {before rest : List Char} {fit : Fit}
    (htext : text = before ++ rest) : ¬ Fits p rest fit := by
  induction text generalizing before with
  | nil =>
      obtain ⟨rfl, rfl⟩ := List.append_eq_nil_iff.mp htext.symm
      exact not_fits_of_lay (Option.map_eq_none_iff.mp h)
  | cons c text ih =>
      unfold search? at h
      split at h
      next => exact nomatch h
      next hlay =>
        cases before with
        | nil =>
            obtain rfl : c :: text = rest := htext
            exact not_fits_of_lay hlay
        | cons d before =>
            exact ih (Option.map_eq_none_iff.mp h) (List.cons.inj htext).2

end Pattern

end Cursors.Text
