/-
  Cursors.Text.Pattern
  ────────────────────
  **PATTERNS OF TEXTS.**

  A pattern is laid on the front of a text.  It may fit there in several
  ways, which are tried in order of preference until one of them suits:

      literal     one way at most
      run         longer runs before shorter ones
      seq         the ways of the first part, each with those of the second
      optional    the ways of the part, and last the way that leaves it out
      group       the ways of the part, of each of which a note is taken

  The notes come in the order in which the groups begin; a group that was
  left out has none, which is noted as well.
-/
namespace Cursors.Text

/-- A pattern of texts. -/
inductive Pattern where
  /-- Just these characters. -/
  | literal (cs : List Char)
  /-- At least so many characters of a class. -/
  | run (inClass : Char → Bool) (atLeast : Nat)
  /-- One part behind another. -/
  | seq (first second : Pattern)
  /-- A part that may be left out. -/
  | optional (part : Pattern)
  /-- A part of which a note is taken. -/
  | group (part : Pattern)

/-- One way in which a pattern fits the front of a text. -/
structure Fit where
  /-- What the pattern fits. -/
  taken : List Char
  /-- What follows. -/
  rest : List Char
  /-- What was noted of the groups. -/
  notes : List (Option (List Char))
  deriving Repr, DecidableEq

namespace Pattern

variable {β : Type}

/-- The number of groups in a pattern. -/
def groups : Pattern → Nat
  | literal _ | run .. => 0
  | seq first second => first.groups + second.groups
  | optional part => part.groups
  | group part => part.groups + 1

/-! ## §1. Laying a pattern on a text. -/

/-- Try the runs behind `taken`, which is reversed, longest first. -/
def layRun (inClass : Char → Bool) (suits : List Char → List Char → Option β) :
    List Char → List Char → Option β
  | taken, [] => suits taken.reverse []
  | taken, c :: cs =>
      if inClass c then
        -- A shorter run is a way back from a longer one.
        match layRun inClass suits (c :: taken) cs with
        | some b => some b
        | none => suits taken.reverse (c :: cs)
      else suits taken.reverse (c :: cs)

/-- Lay a pattern on the front of a text, in one way after the other until one `suits`. -/
def lay : Pattern → List Char → (Fit → Option β) → Option β
  | literal cs, text, suits =>
      match cs.isPrefixOf? text with
      | some rest => suits ⟨cs, rest, []⟩
      | none => none
  | run inClass atLeast, text, suits =>
      layRun inClass
        (fun taken rest => if atLeast ≤ taken.length then suits ⟨taken, rest, []⟩ else none) [] text
  | seq first second, text, suits =>
      first.lay text fun a => second.lay a.rest fun b =>
        suits ⟨a.taken ++ b.taken, b.rest, a.notes ++ b.notes⟩
  | optional part, text, suits =>
      match part.lay text suits with
      | some b => some b
      | none => suits ⟨[], text, List.replicate part.groups none⟩
  | group part, text, suits =>
      part.lay text fun a => suits { a with notes := some a.taken :: a.notes }

/-! ## §2. Reading whole texts, and searching them. -/

/-- The notes of the first way in which a pattern fits a whole text. -/
def read? (p : Pattern) (text : List Char) : Option (List (Option (List Char))) :=
  p.lay text fun fit => if fit.rest.isEmpty then some fit.notes else none

/-- The first place in a text where a pattern fits, by what comes before it, and the first way in
which it fits there. -/
def search? (p : Pattern) : List Char → Option (List Char × Fit)
  | [] => (p.lay [] some).map fun fit => ([], fit)
  | c :: cs =>
      match p.lay (c :: cs) some with
      | some fit => some ([], fit)
      | none => (p.search? cs).map fun (before, fit) => (c :: before, fit)

end Pattern

end Cursors.Text
