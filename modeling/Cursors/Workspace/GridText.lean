/-
  Cursors.Workspace.GridText
  ──────────────────────────
  **THE TEXT OF A GRID.**

  The elements of a grid are written in columns: all of them are brought to
  one form, and padded to one width.  Floats are written positionally if
  they are neither too large nor too small nor too far apart, with at most
  eight digits after the point.  Rows stand between brackets; what is too
  long for a line goes on below its first element.  Of a grid with very many
  elements the middle of each long axis is left out.
-/
import Cursors.Number.Shortest
import Cursors.Workspace.Grid

namespace Cursors.Workspace

open Number (Binary BinaryFormat Decimal Rounded)

/-! ## §1. Padding. -/

/-- So many blanks. -/
def blanks (n : Nat) : String := String.ofList (List.replicate n ' ')

/-- A text with blanks before it, up to a width. -/
def padLeft (width : Nat) (t : String) : String := blanks (width - t.length) ++ t

/-- A text with blanks after it, up to a width. -/
def padRight (width : Nat) (t : String) : String := t ++ blanks (width - t.length)

/-- The length of the longest text. -/
def longest (texts : List String) : Nat := (texts.map String.length).foldl max 0

/-! ## §2. Floats. -/

/-- The digits after the point that are written at most. -/
def places : Nat := 8

/-- A finite float, taken apart. -/
structure Finite where
  negative : Bool
  /-- The value, unless it is zero. -/
  value : Option Rounded

/-- The finite float with these bits in a format. -/
def finite? (format : BinaryFormat) (bits : UInt64) : Option Finite :=
  match Binary.ofBits bits with
  | .finite negative m q =>
      some ⟨negative, if m = 0 then none else some (format.rounded m q)⟩
  | _ => none

/-- A sign before a text. -/
def Finite.signed (x : Finite) (t : String) : String := if x.negative then "-" ++ t else t

/-- The digits before and after the point of a float that is written positionally. -/
def Finite.positional (x : Finite) : String × String :=
  match x.value with
  | none => (x.signed "0", "")
  | some v =>
      let d := v.shortest
      let d := if -d.exponent ≤ places then d else (v.roundTo (-(places : Int))).trim 400
      let (whole, part) := if d.digits = 0 then (['0'], []) else d.parts
      (x.signed (String.ofList whole), String.ofList part)

/-- The nearest decimal with so many digits after the first. -/
def withDigits (v : Rounded) (count : Nat) : Decimal := v.roundTo (v.scale - 1 - count)

/-- The digits after the first that a float is written with if it has an exponent. -/
def Finite.mantissaPlaces (x : Finite) : Nat :=
  match x.value with
  | none => 0
  | some v =>
      let d := v.shortest
      let d := if d.text.length ≤ places + 1 then d else (withDigits v places).trim 400
      d.text.length - 1

/-- A float with an exponent and so many digits after the first; the digits before the point,
those after it, and the exponent. -/
def Finite.scientific (x : Finite) (count : Nat) : String × String × Int :=
  match x.value with
  | none => (x.signed "0", String.ofList (List.replicate count '0'), 0)
  | some v =>
      let d := withDigits v count
      -- Rounding can carry into a further digit, which then is a zero too many.
      let digits := d.text.take (count + 1)
      (x.signed (String.ofList (digits.take 1)), String.ofList (digits.drop 1), d.point - 1)

/-- The quotient of the largest and the smallest value in a format, as a number. -/
def spread (format : BinaryFormat) (least greatest : UInt64) : Float :=
  Float.ofBits (format.narrow (Float.ofBits greatest / Float.ofBits least).toBits)

/-- Whether floats, given by their magnitudes without zeros, are written with an exponent. -/
def needExponents (format : BinaryFormat) (magnitudes : List UInt64) : Bool :=
  match magnitudes.max?, magnitudes.min? with
  | some greatest, some least =>
      let limit := Float.ofScientific 1 false (min 8 format.exponentFrom)
      let small := Float.ofBits (format.narrow (0.0001 : Float).toBits)
      Float.ofBits greatest ≥ limit || Float.ofBits least < small
        || spread format least greatest > 1000
  | _, _ => false

/-- The texts of what is not finite. -/
def specialText (bits : UInt64) : String :=
  match Binary.ofBits bits with
  | .nan => "nan"
  | .infinite true => "-inf"
  | _ => "inf"

/-- The texts of the floats of a grid, all of one width. -/
def floatTexts (format : BinaryFormat) (items : List UInt64) : List String :=
  let finites := items.filterMap (finite? format)
  let specials := items.filter fun bits => (finite? format bits).isNone
  -- The magnitudes go up with the bits once the sign is taken off.
  let magnitudes := (items.filter fun b => (finite? format b).isSome).map
    fun b => UInt64.ofNat (b.toNat % Number.twoTo 63)
  if needExponents format (magnitudes.filter (· ≠ 0)) then
    let count := (finites.map Finite.mantissaPlaces).foldl max 0
    let texts := finites.map (·.scientific count)
    let left := longest (texts.map (·.1))
    let exponentWidth := longest (texts.map fun t => Number.exponentText 2 t.2.2) - 1
    let right := exponentWidth + 2 + count
    let left := max left (longest (specials.map specialText) - (right + 1))
    items.map fun bits =>
      match finite? format bits with
      | none => padLeft (left + right + 1) (specialText bits)
      | some x =>
          let (whole, part, exponent) := x.scientific count
          padLeft left whole ++ "." ++ part ++ "e" ++ Number.exponentText exponentWidth exponent
  else
    let texts := finites.map Finite.positional
    let left := longest (texts.map (·.1))
    let right := longest (texts.map (·.2))
    let left := max left (longest (specials.map specialText) - (right + 1))
    items.map fun bits =>
      match finite? format bits with
      | none => padLeft (left + right + 1) (specialText bits)
      | some x =>
          let (whole, part) := x.positional
          padLeft left whole ++ "." ++ padRight right part

/-! ## §3. Elements. -/

/-- A truth value. -/
def showBool (b : Bool) : String := if b then "True" else "False"

/-- The texts of the elements of a grid, all of one width; `alone` if the grid has no axis. -/
def elementTexts (kind : ElementKind) (alone : Bool) (items : List Plain) : List String :=
  match kind with
  | .bool => items.map fun p => padLeft (if alone then 0 else 5) (showBool p.isTrue)
  | .integer _ =>
      let texts := items.map fun p => toString (p.integer?.getD 0)
      texts.map (padLeft (longest texts))
  | .float _ => floatTexts kind.format (items.map fun p => p.floatBits?.getD 0)

/-! ## §4. Axes. -/

/-- An axis as a text shows it: the number of elements shown, and whether those in the middle are
left out. -/
structure Axis where
  shown : Nat
  cut : Bool
  deriving Repr, DecidableEq

/-- The elements that are shown at each end of an axis that is cut. -/
def edge : Nat := 3

/-- The number of elements up to which all of them are shown. -/
def fullyShown : Nat := 1000

/-- The axes of a shape in a text. -/
def axesOf (shape : List Nat) : List Axis :=
  shape.map fun n =>
    if volume shape > fullyShown ∧ n > 2 * edge then ⟨2 * edge, true⟩ else ⟨n, false⟩

/-- The number of elements that are shown. -/
def shownVolume (axes : List Axis) : Nat := volume (axes.map Axis.shown)

/-- The elements of a shape that are shown. -/
def shownItems {α : Type} : List Nat → List Axis → List α → List α
  | n :: shape, axis :: axes, items =>
      let parts := rows (volume shape) n items
      let parts := if axis.cut then parts.take edge ++ parts.drop (n - edge) else parts
      (parts.map (shownItems shape axes)).flatten
  | _, _, items => items

/-- Parts with a mark in the middle of an axis that is cut. -/
def withGap (axis : Axis) (parts : List String) : List String :=
  if axis.cut then parts.take edge ++ "..." :: parts.drop edge else parts

/-! ## §5. Lines. -/

/-- A text without the blanks at its end. -/
def withoutEnd (t : String) : String :=
  String.ofList (t.toList.reverse.dropWhile (· == ' ')).reverse

/-- The lines of a row and the line under way, after a further word. -/
def extendLine (width : Nat) (indent : String) (done line word : String) : String × String :=
  if line.length + word.length > width ∧ line.length > indent.length then
    (done ++ withoutEnd line ++ "\n", indent ++ word)
  else (done, line ++ word)

/-- A row of words between brackets, where the first line starts after an indent. -/
def rowText (width : Nat) (indent separator : String) (words : List String) : String :=
  let width := width - max (withoutEnd separator).length 1
  let rec go (done line : String) : List String → String
    | [] => done ++ line
    | [word] =>
        let (done, line) := extendLine width indent done line word
        done ++ line
    | word :: rest =>
        let (done, line) := extendLine width indent done line word
        go done (line ++ separator) rest
  "[" ++ String.ofList ((go "" indent words).toList.drop indent.length) ++ "]"

/-- The elements along some axes between brackets, one row below the other. -/
def blockText (separator : String) : List Axis → Nat → String → List String → String
  | [], _, _, words => String.join words
  | [axis], width, indent, words => rowText width indent separator (withGap axis words)
  | axis :: next :: axes, width, indent, words =>
      let blocks := (rows (shownVolume (next :: axes)) axis.shown words).map
        (blockText separator (next :: axes) (width - 1) (indent ++ " "))
      let gap := withoutEnd separator ++ String.ofList (List.replicate (axes.length + 1) '\n')
      "[" ++ String.intercalate (gap ++ indent) (withGap axis blocks) ++ "]"

/-- The elements of a grid between brackets. -/
def rowsText (separator : String) (width : Nat) (indent : String) (kind : ElementKind)
    (shape : List Nat) (items : List Plain) : String :=
  let axes := axesOf shape
  blockText separator axes width indent
    (elementTexts kind shape.isEmpty (shownItems shape axes items))

/-- The width of a line. -/
def lineWidth : Nat := 75

/-- Whether the kind of a grid is not told by its elements. -/
def needsName (kind : ElementKind) : Bool :=
  !(kind == .bool || kind == .integer (.signed 64) || kind == .float 64)

/-- The shape of a grid as a message shows it. -/
def shapeText : List Nat → String
  | [n] => "(" ++ toString n ++ ",)"
  | shape => "(" ++ String.intercalate ", " (shape.map toString) ++ ")"

/-- A grid as messages show it, with its kind and shape if the elements do not tell them. -/
def gridText (kind : ElementKind) (shape : List Nat) (items : List Plain) : String :=
  let lead := "array("
  let body :=
    if items.isEmpty then "[]"
    else rowsText ", " (lineWidth - 1) (blanks (lead.length + 1)) kind shape items
  let extras :=
    (if (items.isEmpty && shape != [0]) || volume shape > fullyShown then ["shape=" ++ shapeText shape] else [])
      ++ (if items.isEmpty || needsName kind then ["dtype=" ++ kind.name] else [])
  if extras.isEmpty then lead ++ body ++ ")"
  else
    let start := lead ++ body ++ ","
    let extra := String.intercalate ", " extras ++ ")"
    let lastLine := (start.toList.reverse.takeWhile (· != '\n')).length
    start ++ (if lastLine + extra.length + 1 > lineWidth then "\n" ++ blanks lead.length else " ")
      ++ extra

/-- A grid by itself, its elements between blanks. -/
def bareGridText (kind : ElementKind) (shape : List Nat) (items : List Plain) : String :=
  if items.isEmpty then "[]"
  else rowsText " " lineWidth " " kind shape items

end Cursors.Workspace
