/-
  Cursors.Proofs.Release.Rewriting
  ────────────────────────────────
  **A VERSION IS WRITTEN IN ONE PLACE.**

  Stamping a source replaces its first version line and nothing else.  The
  line that is written is then the first one of the new source, and stamping
  once more changes nothing, just if the version has no line break:

      earlier lines   a line that starts before the new one and was not there
                      in the old source would have to start within the new
                      opening, whose first letter occurs in it once only
                      (`FirstLine.replace`)
      line breaks     the pattern of a version line does not cross them, so a
                      version with one is not found again (`stamp_rewrites`)

  The name of a release is anything without hyphens, line breaks included,
  so there are such versions (`stamp_not_always_settled`).
-/
import Cursors.Release.Constant
import Cursors.Proofs.Text.Pattern

namespace Cursors.Release

open Cursors.Text (Fit Pattern)
open Cursors.Text.Pattern (Reads reads_literal_iff reads_run_iff reads_seq_iff)

variable {source before before' inner inner' after after' version : List Char}

/-! ## §1. Version lines. -/

/-- Some line of the source gives a version. -/
def HasLine (source : List Char) : Prop :=
  ∃ before inner after, source = before ++ (line inner ++ after) ∧ '\n' ∉ inner

/-- The first line of a source that gives a version, with what stands around it. -/
structure FirstLine (source before inner after : List Char) : Prop where
  source_eq : source = before ++ (line inner ++ after)
  oneLine : '\n' ∉ inner
  first : ∀ {before' inner' after' : List Char}, source = before' ++ (line inner' ++ after') →
    '\n' ∉ inner' → before.length ≤ before'.length

theorem FirstLine.hasLine (h : FirstLine source before inner after) : HasLine source :=
  ⟨before, inner, after, h.source_eq, h.oneLine⟩

theorem not_mem_opening : '\n' ∉ opening := by decide

/-- The opening does not start again within itself. -/
theorem opening_overlap {c rest v : List Char} (hc : c ≠ []) (hrest : rest ≠ [])
    (h : opening = c ++ rest) : rest ++ inner ≠ opening ++ v := by
  intro heq
  have hhead : 'v' ∉ opening.tail := by decide
  obtain ⟨d, c, rfl⟩ := List.exists_cons_of_ne_nil hc
  obtain ⟨e, rest, rfl⟩ := List.exists_cons_of_ne_nil hrest
  -- The rest begins as the opening does, so its letter stands behind the first of the opening.
  obtain ⟨rfl, -⟩ : e = 'v' ∧ _ := List.cons.inj heq
  rw [h, List.cons_append, List.tail_cons] at hhead
  exact hhead (List.mem_append_right c List.mem_cons_self)

/-- The texts before the first line breaks of equal texts are equal, and so are those behind. -/
theorem append_lineBreak_inj {xs ys as bs : List Char} (hxs : '\n' ∉ xs) (hys : '\n' ∉ ys)
    (h : xs ++ '\n' :: as = ys ++ '\n' :: bs) : xs = ys ∧ as = bs := by
  have hsplit := congrArg (List.splitOn '\n') h
  rw [List.splitOn_append_cons_self_of_not_mem hxs,
    List.splitOn_append_cons_self_of_not_mem hys] at hsplit
  obtain rfl : xs = ys := (List.cons.inj hsplit).1
  exact ⟨rfl, (List.cons.inj (List.append_cancel_left h)).2⟩

/-- A version line up to its line break. -/
theorem line_append (inner after : List Char) :
    line inner ++ after = opening ++ inner ++ ['"'] ++ '\n' :: after := by
  simp [line]

theorem not_mem_lineText (h : '\n' ∉ inner) : '\n' ∉ opening ++ inner ++ ['"'] := by
  simp only [List.mem_append, not_or]
  exact ⟨⟨not_mem_opening, h⟩, by decide⟩

theorem line_append_inj (hinner : '\n' ∉ inner) (hinner' : '\n' ∉ inner')
    (h : line inner ++ after = line inner' ++ after') : inner = inner' ∧ after = after' := by
  rw [line_append, line_append] at h
  obtain ⟨htext, hafter⟩ :=
    append_lineBreak_inj (not_mem_lineText hinner) (not_mem_lineText hinner') h
  exact ⟨List.append_cancel_left (List.append_cancel_right htext), hafter⟩

/-- There is one first line at most. -/
theorem FirstLine.unique (h : FirstLine source before inner after)
    (h' : FirstLine source before' inner' after') :
    before = before' ∧ inner = inner' ∧ after = after' := by
  have hlength : before.length = before'.length :=
    Nat.le_antisymm (h.first h'.source_eq h'.oneLine) (h'.first h.source_eq h.oneLine)
  obtain ⟨hbefore, hline⟩ := List.append_inj (h.source_eq.symm.trans h'.source_eq) hlength
  exact ⟨hbefore, line_append_inj h.oneLine h'.oneLine hline⟩

/-! ## §2. What is searched for. -/

theorem reads_linePattern_iff {cs : List Char} {notes : List (Option (List Char))} :
    Reads linePattern cs notes ↔ notes = [] ∧ ∃ inner, '\n' ∉ inner ∧ cs = line inner := by
  constructor
  · intro hreads
    obtain ⟨_, _, _, _, rfl, rfl, hopening, hreads⟩ := reads_seq_iff.mp hreads
    obtain ⟨inner, _, _, _, rfl, rfl, hinner, hclosing⟩ := reads_seq_iff.mp hreads
    obtain ⟨rfl, rfl⟩ := reads_literal_iff.mp hopening
    obtain ⟨hclass, -, rfl⟩ := reads_run_iff.mp hinner
    obtain ⟨rfl, rfl⟩ := reads_literal_iff.mp hclosing
    refine ⟨rfl, inner, ?_, (List.append_assoc _ _ _).symm⟩
    intro hmem
    exact absurd (hclass '\n' hmem) (by decide)
  · rintro ⟨rfl, inner, hinner, rfl⟩
    have hclass : ∀ c ∈ inner, (c != '\n') = true := by
      intro c hc
      rw [bne_iff_ne]
      rintro rfl
      exact hinner hc
    have hrun : Reads (.run (· != '\n') 0) inner [] := .run hclass (Nat.zero_le _)
    have hreads := Reads.seq (.literal opening) (.seq hrun (.literal ['"', '\n']))
    rwa [← List.append_assoc] at hreads

theorem fits_line (hinner : '\n' ∉ inner) :
    Pattern.Fits linePattern (line inner ++ after) ⟨line inner, after, []⟩ :=
  ⟨rfl, reads_linePattern_iff.mpr ⟨rfl, inner, hinner, rfl⟩⟩

theorem firstLine_of_search? {fit : Fit} (h : linePattern.search? source = some (before, fit)) :
    ∃ inner, FirstLine source before inner fit.rest := by
  obtain ⟨hsource, hreads, hfirst⟩ := Pattern.firstFit_of_search? h
  obtain ⟨-, inner, hinner, htaken⟩ := reads_linePattern_iff.mp hreads
  rw [htaken] at hsource
  refine ⟨inner, hsource, hinner, ?_⟩
  intro before' inner' after' hsource' hinner'
  exact hfirst hsource' (fits_line hinner')

theorem not_hasLine_of_search? (h : linePattern.search? source = none) : ¬ HasLine source := by
  rintro ⟨before, inner, after, hsource, hinner⟩
  exact Pattern.not_fits_of_search? h hsource (fits_line hinner)

theorem firstLine_of_hasLine (h : HasLine source) :
    ∃ before inner after, FirstLine source before inner after := by
  cases hsearch : linePattern.search? source with
  | none => exact absurd h (not_hasLine_of_search? hsearch)
  | some found =>
      obtain ⟨before, fit⟩ := found
      obtain ⟨inner, hfirst⟩ := firstLine_of_search? hsearch
      exact ⟨before, inner, fit.rest, hfirst⟩

theorem withVersion_of_firstLine (h : FirstLine source before inner after) :
    withVersion version source = before ++ (line version ++ after) := by
  unfold withVersion
  split
  next before' fit hsearch =>
    obtain ⟨inner', hfirst⟩ := firstLine_of_search? hsearch
    obtain ⟨rfl, rfl, rfl⟩ := h.unique hfirst
    rw [List.append_assoc]
  next hsearch => exact absurd h.hasLine (not_hasLine_of_search? hsearch)

theorem withVersion_of_not_hasLine (h : ¬ HasLine source) :
    withVersion version source = source := by
  unfold withVersion
  split
  next before fit hsearch =>
    obtain ⟨inner, hfirst⟩ := firstLine_of_search? hsearch
    exact absurd hfirst.hasLine h
  next => rfl

/-! ## §3. A replaced line is the first one again. -/

/-- A line that starts before another one of them, and reaches into it. -/
theorem overlap_lines {c v : List Char} (hc : c ≠ []) (hbreak : '\n' ∉ c) (hv : '\n' ∉ v)
    (hinner : '\n' ∉ inner) (h : c ++ (line v ++ after) = line inner ++ after') :
    ∃ c', c = opening ++ c' := by
  rw [line_append, line_append, ← List.append_assoc] at h
  have hfree : '\n' ∉ c ++ (opening ++ v ++ ['"']) := by
    rw [List.mem_append, not_or]
    exact ⟨hbreak, not_mem_lineText hv⟩
  obtain ⟨htext, -⟩ := append_lineBreak_inj hfree (not_mem_lineText hinner) h
  rw [← List.append_assoc] at htext
  have hopening : c ++ (opening ++ v) = opening ++ inner := List.append_cancel_right htext
  obtain ⟨rest, hrest, heq⟩ | ⟨c', hc', -⟩ := List.append_eq_append_iff.mp hopening
  · obtain rfl | hne := eq_or_ne rest []
    · exact ⟨[], by rw [hrest, List.append_nil, List.append_nil]⟩
    · exact absurd heq.symm (opening_overlap hc hne hrest)
  · exact ⟨c', hc'⟩

/-- A line that starts before the one that is replaced was there before, be it with another
version. -/
theorem line_of_replaced {c v : List Char} (hc : c ≠ []) (hv : '\n' ∉ v) (hinner : '\n' ∉ inner)
    (hinner' : '\n' ∉ inner') (h : c ++ (line v ++ after) = line inner' ++ after') :
    ∃ inner'' after'', c ++ (line inner ++ after) = line inner'' ++ after'' ∧ '\n' ∉ inner'' := by
  by_cases hbreak : '\n' ∈ c
  · -- The line ends before the replaced one starts.
    obtain ⟨c₁, c₂, rfl, hc₁⟩ := List.eq_append_cons_of_mem hbreak
    rw [List.append_assoc, List.cons_append, line_append inner'] at h
    obtain ⟨rfl, -⟩ := append_lineBreak_inj hc₁ (not_mem_lineText hinner') h
    refine ⟨inner', c₂ ++ (line inner ++ after), ?_, hinner'⟩
    rw [line_append inner', List.append_assoc, List.cons_append]
  · obtain ⟨c', rfl⟩ := overlap_lines hc hbreak hv hinner' h
    refine ⟨c' ++ (opening ++ inner), after, ?_, ?_⟩
    · simp [line]
    · simp only [List.mem_append, not_or]
      exact ⟨fun hmem => hbreak (List.mem_append_right opening hmem), not_mem_opening, hinner⟩

/-- The line that is written is the first one of the new source. -/
theorem FirstLine.replace (h : FirstLine source before inner after) (hversion : '\n' ∉ version) :
    FirstLine (before ++ (line version ++ after)) before version after := by
  refine ⟨rfl, hversion, ?_⟩
  intro before' inner' after' hsource hinner'
  obtain ⟨c, rfl, hline⟩ | ⟨c, rfl, -⟩ := List.append_eq_append_iff.mp hsource
  · rw [List.length_append]
    exact Nat.le_add_right _ _
  · by_contra hlonger
    have hc : c ≠ [] := by
      rintro rfl
      rw [List.append_nil] at hlonger
      exact hlonger (Nat.le_refl _)
    rw [List.append_assoc] at hsource
    obtain ⟨inner'', after'', hthere, hinner''⟩ := line_of_replaced hc hversion h.oneLine hinner'
      (List.append_cancel_left hsource)
    have hearlier : source = before' ++ (line inner'' ++ after'') := by
      rw [h.source_eq, List.append_assoc, hthere]
    exact hlonger (h.first hearlier hinner'')

/-! ## §4. Stamping. -/

/-- A description that a version is written for. -/
structure Accepted (output version : List Char) : Prop where
  described : describe output = .ok version
  changed : version ≠ initial
  /-- In what is written for a match, backslashes have a meaning of their own. -/
  plain : '\\' ∉ output

/-- By this description the source is written anew. -/
def Writes (output version source written : List Char) : Prop :=
  stamp (some output) source
    = .ok { version := version, described := some version, written := some written }

/-- Of the source, only the first version line is replaced. -/
structure Confined (version source written : List Char) : Prop where
  replaced : ∀ {before inner after : List Char}, FirstLine source before inner after →
    written = before ++ (line version ++ after)
  kept : ¬ HasLine source → written = source

/-- The version is found where it was written, and writing it again makes no difference. -/
structure Settled (output version source written : List Char) : Prop where
  found : HasLine source → ∃ before after, FirstLine written before version after
  again : Writes output version written written

theorem Accepted.writes {output : List Char} (h : Accepted output version) (source : List Char) :
    Writes output version source (withVersion version source) := by
  unfold Writes
  simp only [stamp, h.described]
  exact if_neg h.changed

theorem confined_withVersion (version source : List Char) :
    Confined version source (withVersion version source) where
  replaced h := withVersion_of_firstLine h
  kept h := withVersion_of_not_hasLine h

theorem settled_iff {output : List Char} (h : Accepted output version) :
    Settled output version source (withVersion version source)
      ↔ '\n' ∉ version ∨ ¬ HasLine source := by
  constructor
  · intro hsettled
    by_cases hline : HasLine source
    · obtain ⟨before, after, hfirst⟩ := hsettled.found hline
      exact .inl hfirst.oneLine
    · exact .inr hline
  · intro hcases
    have hagain : withVersion version (withVersion version source)
        = withVersion version source := by
      by_cases hline : HasLine source
      · obtain ⟨before, inner, after, hfirst⟩ := firstLine_of_hasLine hline
        have hversion : '\n' ∉ version := hcases.resolve_right fun hnone => hnone hline
        rw [withVersion_of_firstLine hfirst, withVersion_of_firstLine (hfirst.replace hversion)]
      · rw [withVersion_of_not_hasLine hline, withVersion_of_not_hasLine hline]
    refine ⟨?_, ?_⟩
    · intro hline
      obtain ⟨before, inner, after, hfirst⟩ := firstLine_of_hasLine hline
      have hversion : '\n' ∉ version := hcases.resolve_right fun hnone => hnone hline
      rw [withVersion_of_firstLine hfirst]
      exact ⟨before, after, hfirst.replace hversion⟩
    · have hwrites := h.writes (withVersion version source)
      rwa [hagain] at hwrites

/-- **Writing a version replaces the first version line of the source and keeps the rest.  The
version is then the first one found in what was written, and writing it again gives the same text,
just if the version has no line break or the source no version line.** -/
theorem stamp_rewrites {output version : List Char} (h : Accepted output version)
    (source : List Char) :
    ∃ written, Writes output version source written ∧ Confined version source written
      ∧ (Settled output version source written ↔ '\n' ∉ version ∨ ¬ HasLine source) :=
  ⟨withVersion version source, h.writes source, confined_withVersion version source,
    settled_iff h⟩

/-- A release with commits after it, written over the first of two lines. -/
theorem stamp_rewrites_two_lines :
    Accepted "v1.2-3-gab\n".toList "1.2.post3+gab".toList
      ∧ ∃ written, Writes "v1.2-3-gab\n".toList "1.2.post3+gab".toList
          (line "a\"b".toList ++ line initial) written
        ∧ Confined "1.2.post3+gab".toList (line "a\"b".toList ++ line initial) written
        ∧ (Settled "v1.2-3-gab\n".toList "1.2.post3+gab".toList
            (line "a\"b".toList ++ line initial) written
          ↔ '\n' ∉ "1.2.post3+gab".toList ∨ ¬ HasLine (line "a\"b".toList ++ line initial)) := by
  have haccepted : Accepted "v1.2-3-gab\n".toList "1.2.post3+gab".toList :=
    ⟨by decide, by decide, by decide⟩
  exact ⟨haccepted, stamp_rewrites haccepted _⟩

/-- A version with a line break is not found where it was written: writing it again goes on to the
next line. -/
theorem stamp_not_always_settled :
    Accepted "v1\n2".toList "1\n2".toList
      ∧ Writes "v1\n2".toList "1\n2".toList (line initial ++ line initial)
        (line "1\n2".toList ++ line initial)
      ∧ Writes "v1\n2".toList "1\n2".toList (line "1\n2".toList ++ line initial)
        (line "1\n2".toList ++ line "1\n2".toList)
      ∧ ¬ Settled "v1\n2".toList "1\n2".toList (line initial ++ line initial)
        (line "1\n2".toList ++ line initial) := by
  have hmore : Writes "v1\n2".toList "1\n2".toList (line "1\n2".toList ++ line initial)
      (line "1\n2".toList ++ line "1\n2".toList) := by
    unfold Writes
    decide
  refine ⟨⟨by decide, by decide, by decide⟩, ?_, hmore, ?_⟩
  · unfold Writes
    decide
  · intro hsettled
    have heq := hmore.symm.trans hsettled.again
    exact absurd heq (by decide)

end Cursors.Release
