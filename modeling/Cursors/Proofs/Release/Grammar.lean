/-
  Cursors.Proofs.Release.Grammar
  ──────────────────────────────
  **A DESCRIPTION HAS ONE READING.**

  Split at its hyphens, a description that is accepted comes to

      `v` name                          the release itself
      `v` name, number, `g` hash        commits after it

  and to nothing else (`Spells`).  The pattern of descriptions has just these
  readings (`reads_pattern_iff`): a name, a number and a hash are free of
  hyphens, so the hyphens of the text are those of the pattern.  Hence a
  text has one reading at most, and it does not matter in which order the
  ways of laying the pattern are tried (`describe_accepts_grammar`).
-/
import Cursors.Release.Constant
import Cursors.Proofs.Text.Pattern

namespace Cursors.Release

open Cursors.Text (Pattern)
open Cursors.Text.Pattern (Reads reads_literal_iff reads_run_iff reads_seq_iff reads_optional_iff
  reads_group_iff)

/-! ## §1. The grammar. -/

/-- What the parts of a description between its hyphens say: a tag, and the version that it
stands for. -/
inductive Spells : List (List Char) → Tag → List Char → Prop where
  | release {t : List Char} (ht : t ≠ []) : Spells ['v' :: t] { release := t } t
  | ahead {t n h : List Char} (ht : t ≠ []) (hn : n ≠ [])
      (hdigits : ∀ c ∈ n, Text.isDecimalDigit c = true) (hh : h ≠ [])
      (hhash : ∀ c ∈ h, isHashDigit c = true) :
      Spells ['v' :: t, n, 'g' :: h]
        { release := t, distance := some { commits := n, label := 'g' :: h } }
        (t ++ ".post".toList ++ n ++ "+g".toList ++ h)

/-- What is noted in a description of the tag. -/
def Tag.notes (tag : Tag) : List (Option (List Char)) :=
  [some tag.release, tag.distance.map Distance.commits, tag.distance.map Distance.label]

theorem Tag.ofNotes?_notes (tag : Tag) : Tag.ofNotes? tag.notes = some tag := by
  obtain ⟨release, _ | distance⟩ := tag <;> rfl

namespace Spells

variable {parts : List (List Char)} {tag tag' : Tag} {version version' : List Char}

theorem version_eq (h : Spells parts tag version) : tag.version = version := by
  cases h with
  | release ht => rfl
  | @ahead t n h =>
      show t ++ ".post".toList ++ n ++ ['+'] ++ ('g' :: h) = t ++ ".post".toList ++ n ++ _ ++ h
      rw [List.append_assoc _ ['+'], List.append_assoc _ "+g".toList]
      rfl

/-- The parts say one thing only. -/
theorem unique (h : Spells parts tag version) (h' : Spells parts tag' version') : tag = tag' := by
  cases h <;> cases h' <;> rfl

end Spells

/-! ## §2. Hyphens. -/

theorem hyphen_not_mem_of_digits {n : List Char} (h : ∀ c ∈ n, Text.isDecimalDigit c = true) :
    '-' ∉ n := by
  intro hmem
  exact absurd (h '-' hmem) (by decide)

theorem hyphen_not_mem_of_hash {n : List Char} (h : ∀ c ∈ n, isHashDigit c = true) :
    '-' ∉ n := by
  intro hmem
  exact absurd (h '-' hmem) (by decide)

theorem hyphen_not_mem_cons {c : Char} {cs : List Char} (hc : c ≠ '-') (h : '-' ∉ cs) :
    '-' ∉ c :: cs := by
  intro hmem
  obtain heq | hmem := List.mem_cons.mp hmem
  · exact hc heq.symm
  · exact h hmem

/-- No part between hyphens contains one. -/
theorem hyphen_not_mem_of_mem_splitOn {d part : List Char} (h : part ∈ d.splitOn '-') :
    '-' ∉ part := by
  induction d generalizing part with
  | nil =>
      rw [List.splitOn_nil, List.mem_singleton] at h
      rw [h]
      exact List.not_mem_nil
  | cons c d ih =>
      rw [List.splitOn_cons_eq_if_modifyHead] at h
      split at h
      next =>
        obtain rfl | hpart := List.mem_cons.mp h
        · exact List.not_mem_nil
        · exact ih hpart
      next hc =>
        -- The character goes to the first part of the rest.
        match hrest : d.splitOn '-' with
        | [] => exact absurd hrest (List.splitOn_ne_nil '-' d)
        | first :: others =>
            rw [hrest, List.modifyHead_cons] at h
            obtain rfl | hpart := List.mem_cons.mp h
            · apply hyphen_not_mem_cons
              · rintro rfl
                exact hc rfl
              · exact ih (hrest ▸ List.mem_cons_self)
            · exact ih (hrest ▸ List.mem_cons_of_mem first hpart)

section

variable {d t n h : List Char}

theorem splitOn_release (ht : '-' ∉ t) : ('v' :: t).splitOn '-' = ['v' :: t] :=
  List.splitOn_eq_singleton (hyphen_not_mem_cons (by decide) ht)

theorem splitOn_ahead (ht : '-' ∉ t) (hn : '-' ∉ n) (hh : '-' ∉ h) :
    ('v' :: t ++ '-' :: (n ++ '-' :: 'g' :: h)).splitOn '-' = ['v' :: t, n, 'g' :: h] := by
  rw [List.splitOn_append_cons_self_of_not_mem (hyphen_not_mem_cons (by decide) ht),
    List.splitOn_append_cons_self_of_not_mem hn,
    List.splitOn_eq_singleton (hyphen_not_mem_cons (by decide) hh)]

theorem eq_of_splitOn_release (hd : d.splitOn '-' = ['v' :: t]) : d = 'v' :: t ∧ '-' ∉ t := by
  have hjoin : ['-'].intercalate (d.splitOn '-') = d := List.intercalate_splitOn '-'
  have hfree : '-' ∉ 'v' :: t := by
    apply hyphen_not_mem_of_mem_splitOn
    rw [hd]
    exact List.mem_singleton_self _
  rw [hd, List.intercalate_singleton] at hjoin
  exact ⟨hjoin.symm, fun hmem => hfree (List.mem_cons_of_mem 'v' hmem)⟩

theorem eq_of_splitOn_ahead (hd : d.splitOn '-' = ['v' :: t, n, 'g' :: h]) :
    d = 'v' :: t ++ '-' :: (n ++ '-' :: 'g' :: h) ∧ '-' ∉ t := by
  have hjoin : ['-'].intercalate (d.splitOn '-') = d := List.intercalate_splitOn '-'
  have hfree : '-' ∉ 'v' :: t := by
    apply hyphen_not_mem_of_mem_splitOn
    rw [hd]
    exact List.mem_cons_self
  rw [hd] at hjoin
  refine ⟨hjoin.symm.trans ?_, fun hmem => hfree (List.mem_cons_of_mem 'v' hmem)⟩
  simp [List.intercalate]

end

/-! ## §3. The readings of the pattern. -/

section

variable {cs : List Char} {notes : List (Option (List Char))}

/-- A group that notes a run. -/
theorem reads_noted_run_iff {inClass : Char → Bool} :
    Reads (.group (.run inClass 1)) cs notes
      ↔ cs ≠ [] ∧ (∀ c ∈ cs, inClass c = true) ∧ notes = [some cs] := by
  rw [reads_group_iff]
  constructor
  · rintro ⟨ms, rfl, hrun⟩
    obtain ⟨hclass, hlength, rfl⟩ := reads_run_iff.mp hrun
    exact ⟨List.length_pos_iff.mp hlength, hclass, rfl⟩
  · rintro ⟨hne, hclass, rfl⟩
    exact ⟨[], rfl, .run hclass (List.length_pos_iff.mpr hne)⟩

theorem reads_releasePattern_iff :
    Reads Tag.releasePattern cs notes ↔ cs ≠ [] ∧ '-' ∉ cs ∧ notes = [some cs] := by
  have hfree : (∀ c ∈ cs, (c != '-') = true) ↔ '-' ∉ cs := by
    constructor
    · intro h hmem
      exact absurd (h '-' hmem) (by decide)
    · intro h c hc
      rw [bne_iff_ne]
      rintro rfl
      exact h hc
  unfold Tag.releasePattern
  rw [reads_noted_run_iff, hfree]

theorem reads_labelPattern_iff :
    Reads Tag.labelPattern cs notes
      ↔ ∃ h, cs = 'g' :: h ∧ h ≠ [] ∧ (∀ c ∈ h, isHashDigit c = true) ∧ notes = [some cs] := by
  unfold Tag.labelPattern
  rw [reads_group_iff]
  constructor
  · rintro ⟨ms, rfl, hseq⟩
    obtain ⟨_, h, _, _, rfl, rfl, hg, hrun⟩ := reads_seq_iff.mp hseq
    obtain ⟨rfl, rfl⟩ := reads_literal_iff.mp hg
    obtain ⟨hclass, hlength, rfl⟩ := reads_run_iff.mp hrun
    exact ⟨h, rfl, List.length_pos_iff.mp hlength, hclass, rfl⟩
  · rintro ⟨h, rfl, hne, hclass, rfl⟩
    exact ⟨[], rfl, .seq (.literal ['g']) (.run hclass (List.length_pos_iff.mpr hne))⟩

theorem reads_distancePattern_iff :
    Reads Tag.distancePattern cs notes
      ↔ ∃ n h, cs = '-' :: (n ++ '-' :: 'g' :: h) ∧ n ≠ []
        ∧ (∀ c ∈ n, Text.isDecimalDigit c = true) ∧ h ≠ [] ∧ (∀ c ∈ h, isHashDigit c = true)
        ∧ notes = [some n, some ('g' :: h)] := by
  constructor
  · intro hreads
    obtain ⟨_, _, _, _, rfl, rfl, hhyphen, hreads⟩ := reads_seq_iff.mp hreads
    obtain ⟨n, _, _, _, rfl, rfl, hnumber, hreads⟩ := reads_seq_iff.mp hreads
    obtain ⟨_, _, _, _, rfl, rfl, hhyphen', hlabel⟩ := reads_seq_iff.mp hreads
    obtain ⟨rfl, rfl⟩ := reads_literal_iff.mp hhyphen
    obtain ⟨rfl, rfl⟩ := reads_literal_iff.mp hhyphen'
    obtain ⟨hn, hdigits, rfl⟩ := reads_noted_run_iff.mp hnumber
    obtain ⟨h, rfl, hh, hhash, rfl⟩ := reads_labelPattern_iff.mp hlabel
    exact ⟨n, h, rfl, hn, hdigits, hh, hhash, rfl⟩
  · rintro ⟨n, h, rfl, hn, hdigits, hh, hhash, rfl⟩
    have hnumber : Reads Tag.commitsPattern n [some n] :=
      reads_noted_run_iff.mpr ⟨hn, hdigits, rfl⟩
    have hlabel : Reads Tag.labelPattern ('g' :: h) [some ('g' :: h)] :=
      reads_labelPattern_iff.mpr ⟨h, rfl, hh, hhash, rfl⟩
    exact .seq (.literal ['-']) (.seq hnumber (.seq (.literal ['-']) hlabel))

/-- The readings of a description are what its parts between hyphens say. -/
theorem reads_pattern_iff :
    Reads Tag.pattern cs notes
      ↔ ∃ tag version, Spells (cs.splitOn '-') tag version ∧ notes = tag.notes := by
  constructor
  · intro hreads
    obtain ⟨_, _, _, _, rfl, rfl, hv, hreads⟩ := reads_seq_iff.mp hreads
    obtain ⟨t, _, _, _, rfl, rfl, hrelease, hdistance⟩ := reads_seq_iff.mp hreads
    obtain ⟨rfl, rfl⟩ := reads_literal_iff.mp hv
    obtain ⟨ht, hfree, rfl⟩ := reads_releasePattern_iff.mp hrelease
    obtain hthere | ⟨rfl, rfl⟩ := reads_optional_iff.mp hdistance
    · obtain ⟨n, h, rfl, hn, hdigits, hh, hhash, rfl⟩ := reads_distancePattern_iff.mp hthere
      have hparts := splitOn_ahead hfree (hyphen_not_mem_of_digits hdigits)
        (hyphen_not_mem_of_hash hhash)
      rw [List.singleton_append, ← List.cons_append, hparts]
      exact ⟨_, _, .ahead ht hn hdigits hh hhash, rfl⟩
    · refine ⟨{ release := t }, t, ?_, rfl⟩
      rw [List.append_nil, List.singleton_append, splitOn_release hfree]
      exact .release ht
  · rintro ⟨tag, version, hspells, rfl⟩
    generalize hparts : cs.splitOn '-' = parts at hspells
    cases hspells with
    | release ht =>
        obtain ⟨hcs, hfree⟩ := eq_of_splitOn_release hparts
        subst hcs
        have hrelease : Reads Tag.releasePattern version [some version] :=
          reads_releasePattern_iff.mpr ⟨ht, hfree, rfl⟩
        have hreads := Reads.seq hrelease (.leftOut : Reads (.optional Tag.distancePattern) _ _)
        rw [List.append_nil] at hreads
        exact .seq (.literal ['v']) hreads
    | @ahead t n h ht hn hdigits hh hhash =>
        obtain ⟨rfl, hfree⟩ := eq_of_splitOn_ahead hparts
        have hrelease : Reads Tag.releasePattern t [some t] :=
          reads_releasePattern_iff.mpr ⟨ht, hfree, rfl⟩
        have hdistance : Reads Tag.distancePattern ('-' :: (n ++ '-' :: 'g' :: h)) _ :=
          reads_distancePattern_iff.mpr ⟨n, h, rfl, hn, hdigits, hh, hhash, rfl⟩
        exact .seq (.literal ['v']) (.seq hrelease (.there hdistance))

theorem reads_pattern_unique {notes' : List (Option (List Char))}
    (h : Reads Tag.pattern cs notes) (h' : Reads Tag.pattern cs notes') : notes = notes' := by
  obtain ⟨tag, version, hspells, rfl⟩ := reads_pattern_iff.mp h
  obtain ⟨tag', version', hspells', rfl⟩ := reads_pattern_iff.mp h'
  rw [hspells.unique hspells']

end

/-! ## §4. Descriptions. -/

section

variable {output d : List Char} {tag : Tag} {version : List Char}

theorem read?_of_spells (h : Spells (d.splitOn '-') tag version) : Tag.read? d = some tag := by
  have hreads : Reads Tag.pattern d tag.notes := reads_pattern_iff.mpr ⟨tag, version, h, rfl⟩
  have hread : Tag.pattern.read? d = some tag.notes :=
    (Pattern.read?_eq_some_iff fun ns hns _ => reads_pattern_unique hns hreads).mpr hreads
  rw [Tag.read?, hread, Option.bind_some, Tag.ofNotes?_notes]

theorem read?_of_not_spells (h : ∀ tag version, ¬ Spells (d.splitOn '-') tag version) :
    Tag.read? d = none := by
  have hread : Tag.pattern.read? d = none := by
    rw [Option.eq_none_iff_forall_ne_some]
    intro notes hnotes
    obtain ⟨tag, version, hspells, -⟩ := reads_pattern_iff.mp (Pattern.reads_of_read? hnotes)
    exact h tag version hspells
  rw [Tag.read?, hread, Option.bind_none]

theorem describe_of_spells (h : Spells ((Text.strip output).splitOn '-') tag version) :
    describe output = .ok version := by
  unfold describe
  rw [read?_of_spells h]
  exact congrArg Except.ok h.version_eq

theorem describe_of_not_spells
    (h : ∀ tag version, ¬ Spells ((Text.strip output).splitOn '-') tag version) :
    describe output = .error (.unexpected (Text.strip output)) := by
  unfold describe
  rw [read?_of_not_spells h]

/-- Nothing is written where a description is refused. -/
theorem stamp_of_error {e : TagError} (h : describe output = .error e) (source : List Char) :
    stamp (some output) source = .error e := by
  simp only [stamp, h]
  rfl

end

/-- **A description is accepted just if its parts between hyphens are a tag, or a tag, a number and
a hash, and gives the version that these spell; any other is refused, and nothing is written.  The
pattern of descriptions has no other reading, and never two, so that every way of laying it comes to
this version.** -/
theorem describe_accepts_grammar (output : List Char) :
    (∀ version, describe output = .ok version
        ↔ ∃ tag, Spells ((Text.strip output).splitOn '-') tag version)
      ∧ ((∀ tag version, ¬ Spells ((Text.strip output).splitOn '-') tag version) →
        describe output = .error (.unexpected (Text.strip output))
          ∧ ∀ source, stamp (some output) source = .error (.unexpected (Text.strip output)))
      ∧ (∀ notes, Reads Tag.pattern (Text.strip output) notes →
        ∃ tag, Tag.ofNotes? notes = some tag ∧ describe output = .ok tag.version)
      ∧ ∀ notes notes', Reads Tag.pattern (Text.strip output) notes →
        Reads Tag.pattern (Text.strip output) notes' → notes = notes' := by
  refine ⟨?_, ?_, ?_, fun _ _ => reads_pattern_unique⟩
  · intro version
    constructor
    · intro hdescribe
      by_contra hnone
      have hrefused : describe output = .error (.unexpected (Text.strip output)) := by
        apply describe_of_not_spells
        intro tag version' hspells
        obtain rfl := Except.ok.inj (hdescribe.symm.trans (describe_of_spells hspells))
        exact hnone ⟨tag, hspells⟩
      rw [hdescribe] at hrefused
      exact nomatch hrefused
    · rintro ⟨tag, hspells⟩
      exact describe_of_spells hspells
  · intro hnone
    have hrefused := describe_of_not_spells hnone
    exact ⟨hrefused, stamp_of_error hrefused⟩
  · intro notes hreads
    obtain ⟨tag, version, hspells, rfl⟩ := reads_pattern_iff.mp hreads
    refine ⟨tag, tag.ofNotes?_notes, ?_⟩
    rw [hspells.version_eq]
    exact describe_of_spells hspells

/-- Parts without a number, or with a line break inside of the name. -/
example : (describe "v1.0--gab\n".toList, describe "v1\n2-03-g0f".toList)
    = (.error (.unexpected "v1.0--gab".toList), .ok "1\n2.post03+g0f".toList) := by
  decide

end Cursors.Release
