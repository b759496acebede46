/-
  Cursors.Release.Tag
  ───────────────────
  **RELEASE TAGS.**

  A checkout describes itself by its latest tag: `v`, the name of the
  release, and, if it has moved on since, the number of commits after the
  tag and the hash of the present one, which starts with `g`.  The parts are
  separated by hyphens, which a name does not contain, so a description can
  be read in one way only.
-/
import Cursors.Text.Blank
import Cursors.Text.DecimalDigit
import Cursors.Text.Pattern

namespace Cursors.Release

open Cursors.Text (Pattern)

/-! ## §1. Tags. -/

/-- How far a checkout has moved on since its tag. -/
structure Distance where
  /-- The number of commits, in decimal digits. -/
  commits : List Char
  /-- The abbreviated hash, in hexadecimal digits behind a `g`. -/
  label : List Char
  deriving DecidableEq, Repr

/-- What a checkout says about itself. -/
structure Tag where
  release : List Char
  distance : Option Distance := none
  deriving DecidableEq, Repr

/-! ## §2. Reading. -/

/-- A digit of a hash. -/
def isHashDigit (c : Char) : Bool := ('0' ≤ c && c ≤ '9') || ('a' ≤ c && c ≤ 'f')

namespace Tag

/-- The name of a release. -/
def releasePattern : Pattern := .group (.run (· != '-') 1)

/-- The number of commits since. -/
def commitsPattern : Pattern := .group (.run Text.isDecimalDigit 1)

/-- The hash of the present commit. -/
def labelPattern : Pattern := .group (.seq (.literal ['g']) (.run isHashDigit 1))

/-- The distance since a tag, each of its parts behind a hyphen. -/
def distancePattern : Pattern :=
  .seq (.literal ['-']) (.seq commitsPattern (.seq (.literal ['-']) labelPattern))

/-- A description of a checkout. -/
def pattern : Pattern := .seq (.literal ['v']) (.seq releasePattern (.optional distancePattern))

/-- The tag that was noted in a description. -/
def ofNotes? : List (Option (List Char)) → Option Tag
  | [some release, none, _] => some { release }
  | [some release, some commits, some label] =>
      some { release, distance := some { commits, label } }
  | _ => none

/-- The tag that a description is, if it is one. -/
def read? (description : List Char) : Option Tag := (pattern.read? description).bind ofNotes?

/-! ## §3. Versions. -/

/-- The version of a checkout: its release, after which commits count as posts, with the hash
as a local label. -/
def version (t : Tag) : List Char :=
  match t.distance with
  | none => t.release
  | some d => t.release ++ ".post".toList ++ d.commits ++ ['+'] ++ d.label

end Tag

end Cursors.Release
