/-
  Cursors.Workspace.Encode
  ────────────────────────
  **DOCUMENTS OF VALUES.**

  The document of a value shows its content as it is now, down to a fixed
  depth.  Iterators, callbacks, classes and their objects show their names
  only.
-/
import Cursors.Number.Numeral
import Cursors.Workspace.Container
import Cursors.Workspace.TypeName

namespace Cursors.Workspace

/-! ## §1. Plain values. -/

/-- The digits of a number of sixty-four bits. -/
def bitsText (bits : UInt64) : String := String.ofList (Text.hexDigits 16 bits.toNat)

/-- A float, by its bits; all that are not a number look the same. -/
def floatDocument (bits : UInt64) : Document :=
  let bits := if Number.Binary.ofBits bits == .nan then Number.Binary.nanBits else bits
  .tagged "f" (.text (bitsText bits))

/-- The document of a content. -/
def Plain.document : Plain → Document
  | .bool b => .bool b
  | .int n => .ofInt n
  | .float bits => floatDocument bits

/-- A row of bytes, by its digits. -/
def bytesDocument (kind : BytesKind) (data : List UInt8) : Document :=
  let tag := match kind with
    | .constant => "bytes"
    | .changeable => "bytearray"
    | .view => "mv"
  .tagged tag (.text (String.ofList (data.flatMap fun b => Text.hexDigits 2 b.toNat)))

/-! ## §2. Objects. -/

/-- The deepest level that is shown. -/
def deepestLevel : Nat := 40

/-- The document of a value with so many levels still shown below it, unless an integer in it is
too long to be written. -/
def Store.documentWithin (s : Store) : Nat → Value → Except Failure Document
  | below, v =>
      -- Numbers inside of a value count as a level of their own.
      let number (p : Plain) : Document := if below = 0 then .tooDeep else p.document
      match v with
      | .null => .ok .null
      | .bool b => .ok (.bool b)
      | .int n =>
          if Number.isWritable n then .ok (.ofInt n) else .error (.refused .value)
      | .float bits _ => .ok (floatDocument bits)
      | .text t => .ok (.text t)
      | .scalar kind content _ => .ok (.tagged "npv" (.list [.text kind.name, number content]))
      | .object id =>
          let inner : Value → Except Failure Document := match below with
            | 0 => fun _ => .ok .tooDeep
            | below + 1 => s.documentWithin below
          let row (items : List Value) : Except Failure Document := do
            return .list (← items.mapM inner)
          match s.cells[id]? with
          | some (.list items) => row items
          | some (.tuple items) => do return .tagged "tuple" (← row items)
          | some (.deque items _) => do return .tagged "deque" (← row items)
          | some (.set frozen members) => do
              let items ← members.members.mapM inner
              return .tagged (if frozen then "frozenset" else "set") (.list (Document.sorted items))
          | some (.dict table) => do
              let entries ← table.entries.mapM fun (k, x) => do
                return .list [← inner k, ← inner x]
              return .tagged "dict" (.list entries)
          | some (.bytes kind data) => .ok (bytesDocument kind data)
          | some (.range a b c) => .ok (.tagged "range" (.list [.int a, .int b, .int c]))
          | some (.packed kind items) =>
              .ok (.tagged "array" (.list [.text kind.letter, .list (items.map number)]))
          | some (.grid kind shape elements offset) =>
              .ok (.tagged "nd" (.list [.text kind.name, .list (shape.map fun n : Nat => .int n),
                .list ((s.gridItems shape elements offset).map number)]))
          | some (.node children) => do return .tagged "node" (← row children)
          | some (.builtin name) => .ok (.tagged "type" (.text name))
          | some (.type record) => .ok (.tagged "type" (.text record.spec.name))
          | some (.custom record _) => .ok (.tagged "obj" (.text record.spec.name))
          | some (.callback ..) => .ok (.tagged "other" (.text "fn"))
          | some (.stream _) => .ok (.tagged "it" (.text "native"))
          | some (.iterator it) => .ok (.tagged "it" (.text it.className))
          | some (.elements _) | none => .ok .null

/-- The document of a value. -/
def Store.document (s : Store) (v : Value) : Except Failure Document :=
  s.documentWithin deepestLevel v

/-- The document of a value as it is now. -/
def documentOf (v : Value) : Act Store Document := do
  Act.ofExcept ((← Act.reading (fun s => s)).document v)

end Cursors.Workspace
