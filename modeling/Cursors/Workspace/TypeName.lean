/-
  Cursors.Workspace.TypeName
  ──────────────────────────
  **WHAT A VALUE IS CALLED, AND WHAT IT CAN DO.**

  The names of the types of values, and the capabilities by which values
  are told apart: whether one is an iterator, whether it can be called,
  whether it can be walked again and again by position.
-/
import Cursors.Workspace.Store

namespace Cursors.Workspace

/-! ## §1. Names. -/

/-- The name of the class of an iterator. -/
def Iterator.className : Iterator → String
  | .peek .. => "IteratorWrapper"
  | .cursor .. => "ListIterator"
  | .window .. => "ArrayIterator"
  | .listWindow .. => "ArrayListIterator"
  | .empty => "EmptyIterator"
  | .single .. => "SingletonIterator"
  | .listSingle .. => "SingletonListIterator"
  | .readOnly _ => "UnmodifiableIterator"
  | .readOnlyList _ => "UnmodifiableListIterator"
  | .filter .. => "FilterIterator"
  | .listFilter .. => "FilterListIterator"
  | .transform .. => "TransformIterator"
  | .chain _ => "IteratorChain"
  | .merge .. => "CollatingIterator"
  | .ring .. | .cycle .. => "LoopingIterator"
  | .listRing .. => "LoopingListIterator"
  | .flatten .. => "ObjectGraphIterator"
  | .buffer .. => "ListIteratorWrapper"
  | .probe false .. => "CustomIterator"
  | .probe true .. => "CustomListIterator"

/-- The place where an iterator that calls functions was created. -/
def Iterator.created? : Iterator → Option String
  | .filter _ _ created _ | .listFilter _ _ created _ | .transform _ _ created
  | .flatten _ created _ => some created
  | _ => none

/-- The name of a row of bytes. -/
def BytesKind.name : BytesKind → String
  | .constant => "bytes"
  | .changeable => "bytearray"
  | .view => "memoryview"

/-- The name of the type of an object. -/
def Cell.typeName : Cell → String
  | .list _ => "list"
  | .tuple _ => "tuple"
  | .deque .. => "deque"
  | .set false _ => "set"
  | .set true _ => "frozenset"
  | .dict _ => "dict"
  | .bytes kind _ => kind.name
  | .range .. => "range"
  | .packed .. => "array"
  | .elements _ | .grid .. => "ndarray"
  | .node _ => "Node"
  | .builtin _ => "type"
  | .type record => if record.spec.mapping then "ABCMeta" else "type"
  | .custom record _ => record.spec.name
  | .callback .. => "function"
  | .stream _ => "iterator"
  | .iterator it => it.className

/-- The name of the type of a value. -/
def Store.typeName (s : Store) (v : Value) : String :=
  match v with
  | .null => "NoneType"
  | .bool _ => "bool"
  | .int _ => "int"
  | .float .. => "float"
  | .text _ => "str"
  | .scalar kind .. => kind.name
  | .object _ => ((s.cell? v).map Cell.typeName).getD "object"

/-! ## §2. Members of scripted classes. -/

/-- Whether a class has a member of this name, absent or not; maps declare how they are
walked. -/
def ClassRecord.has (r : ClassRecord) (name : MemberName) : Bool :=
  (r.spec.member? name).isSome
    || (r.spec.mapping && (name == .iter || name == .keys || name == .values))

/-- Whether a class provides a member of this name. -/
def ClassRecord.provides (r : ClassRecord) (name : MemberName) : Bool :=
  match r.spec.member? name with
  | some .absent => false
  | some _ => true
  | none => r.spec.mapping && (name == .keys || name == .values)

/-- Whether the objects of a class can be walked. -/
def ClassRecord.isIterable (r : ClassRecord) : Bool := r.provides .iter

/-- Whether the objects of a class are iterators. -/
def ClassRecord.isIterator (r : ClassRecord) : Bool := r.provides .iter && r.spec.next.isSome

/-- Whether the objects of a class are collections. -/
def ClassRecord.isCollection (r : ClassRecord) : Bool :=
  r.provides .iter && r.spec.length.isSome && (r.spec.contains || r.spec.mapping)

/-! ## §3. Capabilities of values. -/

/-- Whether a value can be asked for a next element and walked. -/
def Store.isIterator (s : Store) (v : Value) : Bool :=
  match s.cell? v with
  | some (.stream _) | some (.iterator _) => true
  | some (.custom record _) => record.isIterator
  | _ => false

/-- Whether a value can be walked, as far as its type tells. -/
def Store.isIterable (s : Store) (v : Value) : Bool :=
  match v, s.cell? v with
  | .text _, _ => true
  | _, some (.list _) | _, some (.tuple _) | _, some (.deque ..) | _, some (.set ..)
  | _, some (.dict _) | _, some (.bytes ..) | _, some (.range ..) | _, some (.packed ..)
  | _, some (.grid ..) | _, some (.stream _) | _, some (.iterator _) => true
  | _, some (.custom record _) => record.isIterable
  | _, _ => false

/-- Whether a value is an iterator with look-ahead. -/
def Store.looksAhead (s : Store) (v : Value) : Bool := (s.iterator? v).isSome

/-- Whether an iterator goes in both directions. -/
def Iterator.isTwoWay : Iterator → Bool
  | .cursor .. | .listWindow .. | .listSingle .. | .readOnlyList .. | .listFilter ..
  | .listRing .. | .buffer .. | .probe true .. => true
  | _ => false

/-- Whether an iterator shows the single iterator that it works on as a member. -/
def Iterator.showsSource : Iterator → Bool
  | .peek .. | .readOnly _ | .readOnlyList _ | .filter .. | .listFilter .. | .transform ..
  | .cycle .. | .listRing .. | .buffer .. => true
  | _ => false

/-- Whether an iterator can be sent back to its start. -/
def Iterator.isResettable : Iterator → Bool
  | .cursor .. | .window .. | .listWindow .. | .empty | .single .. | .listSingle ..
  | .ring .. | .cycle .. | .listRing .. | .buffer .. => true
  | _ => false

/-- Whether a value is an iterator that goes in both directions. -/
def Store.isTwoWay (s : Store) (v : Value) : Bool :=
  ((s.iterator? v).map Iterator.isTwoWay).getD false

/-- Whether a value can be called. -/
def Store.isCallable (s : Store) (v : Value) : Bool :=
  match s.cell? v with
  | some (.callback ..) | some (.builtin _) | some (.type _) => true
  | _ => false

/-- Whether the elements of a container have positions. -/
def Store.isSequence (s : Store) (v : Value) : Bool :=
  match v with
  | .text _ => true
  | _ =>
      match s.cell? v with
      | some (.list _) | some (.tuple _) | some (.deque ..) | some (.bytes ..)
      | some (.range ..) | some (.packed ..) => true
      | _ => false

/-- Whether a container with positions can also lose elements. -/
def Store.isMutableSequence (s : Store) (v : Value) : Bool :=
  match s.cell? v with
  | some (.list _) | some (.deque ..) | some (.bytes .changeable _) | some (.packed ..) => true
  | _ => false

/-- The names of the iterator interfaces that a value provides. -/
def Store.capabilities (s : Store) (v : Value) : List String :=
  (if s.isIterator v then ["Iterator"] else [])
    ++ match s.iterator? v with
      | none => []
      | some it =>
          "BaseIterator" :: (if it.isResettable then ["ResettableIterator"] else [])
            ++ (if it.isTwoWay then ["BaseListIterator"] else [])

end Cursors.Workspace
