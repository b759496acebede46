/-
  Cursors.Workspace.Show
  ──────────────────────
  **VALUES IN MESSAGES.**

  The text by which a message refers to a value: plain values as they are
  written, containers with their elements between brackets, objects of
  scripted classes by the name of their class.  A container that holds
  itself is cut short where it recurs; what is nested too deep and integers
  that are too long have no text.
-/
import Cursors.Number.Numeral
import Cursors.Workspace.Container
import Cursors.Workspace.GridText
import Cursors.Workspace.TypeName

namespace Cursors.Workspace

/-! ## §1. Plain values. -/

/-- The numeral of an integer, unless it is too long. -/
def numeralText (n : Int) : Except Failure String :=
  match Number.writeInteger? n with
  | some text => .ok text
  | none => .error (.refused .value)

/-- The content of a number. -/
def Plain.show : Plain → String
  | .bool b => showBool b
  | .int n => toString n
  | .float bits => Number.text bits

/-- The content of a scalar of a kind. -/
def scalarText (kind : ElementKind) : Plain → String
  | .bool b => showBool b
  | .int n => toString n
  | .float bits => Number.textIn kind.format bits

/-- Parts between commas. -/
def commas (parts : List String) : String := String.intercalate ", " parts

/-! ## §2. Objects. -/

/-- The levels that an object takes in a text besides its own: some have a list inside. -/
def Cell.extraLevels : Cell → Nat
  | .node _ => 2
  | .deque .. | .set .. => 1
  | _ => 0

/-- The text of a value, entering at most the given number of levels and no object of
`entered` a second time. -/
def Store.showWithin (s : Store) : Nat → List Id → Value → Except Failure String
  | levels, entered, v =>
      match v with
      | .null => .ok "None"
      | .bool b => .ok (showBool b)
      | .int n => numeralText n
      | .float bits _ => .ok (Number.text bits)
      | .text t => .ok (Text.quoted t)
      | .scalar kind content _ => .ok ("np." ++ (match content with
          | .bool b => showBool b ++ "_"
          | content => kind.name ++ "(" ++ scalarText kind content ++ ")"))
      | .object id =>
          match levels with
          | 0 => .error (.refused .recursion)
          | levels + 1 =>
              -- A container inside of itself is cut short.
              let again := entered.contains id
              let inner : Value → Except Failure String :=
                match (s.cells[id]?).elim 0 Cell.extraLevels, levels with
                | 0, levels | 1, levels + 1 | 2, levels + 2 =>
                    s.showWithin levels (id :: entered)
                | _, _ => fun _ => .error (.refused .recursion)
              let row (opened closed : String) (items : List Value) : Except Failure String := do
                if again then return opened ++ "..." ++ closed
                else return opened ++ commas (← items.mapM inner) ++ closed
              match s.cells[id]? with
              | some (.list items) => row "[" "]" items
              | some (.tuple [x]) => row "(" (if again then ")" else ",)") [x]
              | some (.tuple items) => row "(" ")" items
              | some (.deque items _) =>
                  if again then .ok "[...]" else row "deque([" "])" items
              | some (.set frozen t) =>
                  let name := if frozen then "frozenset" else "set"
                  if t.members.isEmpty then .ok (name ++ "()")
                  else if again then .ok (name ++ "(...)")
                  else if frozen then row "frozenset(\x7b" "\x7d)" t.members
                  else row "\x7b" "\x7d" t.members
              | some (.dict table) => do
                  if again then return "\x7b...\x7d"
                  let entries ← table.entries.mapM fun (k, x) => do
                    return (← inner k) ++ ": " ++ (← inner x)
                  return "\x7b" ++ commas entries ++ "\x7d"
              | some (.bytes .constant data) => .ok (Text.quotedBytes data)
              | some (.bytes .changeable data) =>
                  .ok ("bytearray(" ++ Text.quotedChangeable data ++ ")")
              | some (.bytes .view _) => .ok "<memory>"
              | some (.range a b c) => do
                  let bounds ← (if c == 1 then [a, b] else [a, b, c]).mapM numeralText
                  return "range(" ++ commas bounds ++ ")"
              | some (.packed kind items) =>
                  .ok ("array('" ++ kind.letter ++ "'"
                    ++ (if items.isEmpty then "" else
                      ", [" ++ commas (items.map Plain.show) ++ "]") ++ ")")
              | some (.grid kind shape elements offset) =>
                  .ok (gridText kind shape (s.gridItems shape elements offset))
              | some (.node children) => row "Node([" "])" children
              | some (.builtin name) => .ok ("<class '" ++ name ++ "'>")
              | some (.type record) => .ok ("<class '" ++ record.spec.name ++ "'>")
              | some (.custom record _) => .ok ("<" ++ record.spec.name ++ ">")
              | some c => .ok ("<" ++ c.typeName ++ ">")
              | none => .ok "..."

/-- The levels to which a text of a value is nested at most. -/
def deepestText : Nat := 980

/-- The text of a value, unless it is nested too deep. -/
def Store.show (s : Store) (v : Value) : Except Failure String := s.showWithin deepestText [] v

end Cursors.Workspace
