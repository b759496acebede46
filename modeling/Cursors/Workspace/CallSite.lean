/-
  Cursors.Workspace.CallSite
  ──────────────────────────
  **WHERE AN ITERATOR WAS CREATED.**

  A report on a failed call names the place where the iterator was created:
  the call frames, the outermost first, each with the lines of source around
  the call, moved to a common margin.
-/
import Cursors.Workspace.Store

namespace Cursors.Workspace

/-! ## §1. Margins. -/

/-- A character of an indentation. -/
def isIndentation (c : Char) : Bool := c == ' ' || c == '\t'

/-- The width of the indentation of a line. -/
def indentation (line : String) : Nat := (line.toList.takeWhile isIndentation).length

/-- The margin that lines share. -/
def margin (lines : List String) : Nat := ((lines.map indentation).min?).getD 0

/-- A line without its first `n` characters. -/
def withoutMargin (n : Nat) (line : String) : String := String.ofList (line.toList.drop n)

/-- Lines moved to the left by their common margin. -/
def unindent (lines : List String) : List String := lines.map (withoutMargin (margin lines))

/-! ## §2. Frames. -/

/-- The text of a frame. -/
def Frame.text (f : Frame) : String :=
  "  File \"" ++ f.file ++ "\", line " ++ toString f.line ++ ", in " ++ f.function ++ "\n"
    ++ String.join ((unindent (f.context.getD [])).map ("    " ++ ·))

/-- The text of frames that are given from the innermost to the outermost. -/
def framesText (frames : List Frame) : String := String.join (frames.reverse.map Frame.text)

/-- The frames of the library itself, the innermost first. -/
def ownFrames : List Frame :=
  [⟨"lib0.py", 10, "f0", some ["  call0()\n"]⟩, ⟨"lib1.py", 11, "f1", some ["  call1()\n"]⟩,
   ⟨"lib2.py", 12, "f2", some ["  call2()\n"]⟩]

/-- The rest of a list from a position on; a negative position counts from the end. -/
def dropFrom {α : Type} (items : List α) (start : Int) : List α :=
  items.drop (if start < 0 then start + items.length else start).toNat

/-- The text of the present frames from a position on. -/
def Store.callSite (s : Store) (start : Int) : String :=
  framesText (dropFrom (ownFrames ++ s.frames) start)

/-- The text of the place where an iterator is created: the frames of the library itself are left
out. -/
def Store.creation (s : Store) : String := s.callSite ownFrames.length

end Cursors.Workspace
