/-
  Cursors.Release.Constant
  ────────────────────────
  **THE VERSION WRITTEN INTO A SOURCE.**

  A source holds its version between quotes at the end of a line of its own.
  When a checkout is of another version, the first such line is replaced and
  the rest of the source is left as it is.
-/
import Cursors.Release.Tag

namespace Cursors.Release

/-! ## §1. The line. -/

/-- How the line with the version begins. -/
def opening : List Char := "version = \"".toList

/-- The line that gives a version. -/
def line (version : List Char) : List Char := opening ++ version ++ ['"', '\n']

/-- The pattern of such a line. -/
def linePattern : Text.Pattern :=
  .seq (.literal opening) (.seq (.run (· != '\n') 0) (.literal ['"', '\n']))

/-- A source with its first version replaced.  The version is put in as it is: what a backslash in
it would stand for in a replacement text is not followed here. -/
def withVersion (version source : List Char) : List Char :=
  match linePattern.search? source with
  | some (before, fit) => before ++ line version ++ fit.rest
  | none => source

/-! ## §2. Stamping a source. -/

/-- The version that a source has before it is stamped. -/
def initial : List Char := "0.1.0".toList

/-- The outcome of stamping: the version in force, that of the checkout if there is one, and
the source if it was changed. -/
structure Stamp where
  version : List Char
  described : Option (List Char)
  written : Option (List Char)
  deriving DecidableEq, Repr

/-- What a checkout is refused for. -/
inductive TagError where
  | unexpected (description : List Char)
  deriving DecidableEq, Repr

/-- The wording of a refusal. -/
def TagError.message : TagError → List Char
  | .unexpected description => "unexpected tag format: ".toList ++ description

/-- The version that a description gives. -/
def describe (output : List Char) : Except TagError (List Char) :=
  match Tag.read? (Text.strip output) with
  | some tag => .ok tag.version
  | none => .error (.unexpected (Text.strip output))

/-- Stamp a source with the version of its checkout, which is absent outside of one. -/
def stamp (output : Option (List Char)) (source : List Char) : Except TagError Stamp :=
  match output with
  | none => .ok { version := initial, described := none, written := none }
  | some output => do
      let version ← describe output
      if version = initial then
        return { version := initial, described := some version, written := none }
      else
        return { version := version, described := some version,
                 written := some (withVersion version source) }

end Cursors.Release
