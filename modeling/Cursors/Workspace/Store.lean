/-
  Cursors.Workspace.Store
  ───────────────────────
  **THE STORE.**

  The objects of a workspace live in numbered cells and refer to each other
  by number, so that an edit made through one iterator is seen by all that
  share the container.  Next to the cells the store keeps the names, the
  error mode of the running thread, the call frames that creation reports
  quote, and the events of the present step.
-/
import Cursors.Combinator.Buffer
import Cursors.Combinator.Chain
import Cursors.Combinator.Filter
import Cursors.Combinator.Flatten
import Cursors.Combinator.Guard
import Cursors.Combinator.ListFilter
import Cursors.Combinator.ListRing
import Cursors.Combinator.Merge
import Cursors.Combinator.Ring
import Cursors.Primitive.Peek
import Cursors.Primitive.Single
import Cursors.Primitive.Window
import Cursors.Primitive.Cursor
import Cursors.Workspace.Document
import Cursors.Workspace.Grid
import Cursors.Workspace.Scatter
import Cursors.Workspace.Table

namespace Cursors.Workspace

/-! ## §1. Plain walks. -/

/-- A walk that can only be asked for its next element. -/
inductive Stream where
  /-- Nothing is left, for good. -/
  | finished
  /-- By position over a container that may change meanwhile. -/
  | walk (container : Value) (index : Nat)
  /-- Over a container that must not change meanwhile: its stamp is compared at each step, and
  is lost once it differs. -/
  | stamped (container : Id) (index : Nat) (stamp : Option Nat)
  /-- Over the keys or the values of a dictionary, whose size is the stamp; `left` entries are
  expected. -/
  | table (container : Id) (slot : Nat) (stamp : Option Nat) (left : Nat) (values : Bool)
  /-- By subscripts `0, 1, 2, …` until one lies outside. -/
  | subscripts (container : Value) (index : Nat)
  /-- From a number on, in equal steps, without end. -/
  | count (next step : Value)
  /-- The elements of an object under the given keys. -/
  | lookups (container : Value) (keys : List Value)
  /-- The elements of an object under its own keys, asked for at the first step. -/
  | entries (container : Value) (keys : Option Value)
  /-- In the middle of a step of its own. -/
  | busy
  deriving Inhabited

/-! ## §2. Iterators. -/

/-- A look-ahead iterator: what it works on and its state. -/
inductive Iterator where
  | peek (source : Value) (state : Peek Value)
  | cursor (items : Value) (state : Cursor)
  | window (items : Value) (state : Window)
  | listWindow (items : Value) (state : ListWindow)
  | empty
  | single (removable : Value) (state : Single Value)
  | listSingle (state : ListSingle Value)
  | readOnly (source : Value)
  | readOnlyList (source : Value)
  | filter (source predicate : Value) (created : String) (state : Filter Value)
  | listFilter (source predicate : Value) (created : String) (state : ListFilter Value)
  | transform (source function : Value) (created : String)
  | chain (state : Chain Value)
  | merge (sources : List Value) (comparator : Value) (state : Merge Value)
  | ring (items : Value) (state : Ring)
  | cycle (items : Value) (state : Cycle Value)
  | listRing (items : Value) (state : ListRing)
  | flatten (classifier : Value) (created : String) (state : Flatten Value Value)
  | buffer (source strict : Value) (state : Buffer Value)
  | probe (twoWay : Bool) (label : String) (items : List (Item Value)) (position : Nat)
  deriving Inhabited

/-! ## §3. Cells. -/

/-- A class of the script with its plain members evaluated. -/
structure ClassRecord where
  spec : ClassSpec Expr
  shape : Option Value

/-- An object. -/
inductive Cell where
  | list (items : List Value)
  | tuple (items : List Value)
  /-- A double-ended queue and the number of times that it changed its size. -/
  | deque (items : List Value) (changes : Nat)
  | set (frozen : Bool) (members : Scatter)
  | dict (table : Table)
  | bytes (kind : BytesKind) (data : List UInt8)
  | range (start stop step : Int)
  | packed (kind : PackedKind) (items : List Plain)
  /-- The elements that grids share. -/
  | elements (items : List Plain)
  /-- A grid of the elements in another cell, from an offset on. -/
  | grid (kind : ElementKind) (shape : List Nat) (elements : Id) (offset : Nat)
  | node (children : List Value)
  | builtin (name : String)
  | type (record : ClassRecord)
  /-- An object of a class and the number of elements that it gave. -/
  | custom (record : ClassRecord) (given : Nat)
  /-- A callback and the number of results that it gave. -/
  | callback (f : Callback Expr) (label : Option String) (given : Nat)
  | stream (s : Stream)
  | iterator (it : Iterator)
  deriving Inhabited

/-! ## §4. The store. -/

/-- A call frame: file, line, function, and the lines of source around the call. -/
structure Frame where
  file : String
  line : Int
  function : String
  context : Option (List String)

/-- Something that happened during a step. -/
inductive Event where
  /-- A scripted iterator was asked something. -/
  | asked (question label : String)
  /-- A labelled callback was called. -/
  | called (label : String) (arguments : List Document)
  /-- A message was logged. -/
  | logged (text : String)

/-- The whole workspace.  The first cell holds the iterator without elements, which is shared. -/
structure Store where
  cells : Array Cell := #[.iterator .empty]
  names : List (String × Value) := []
  mode : Mode := .wrap
  frames : List Frame := []
  /-- The next mark; zero marks what is told from everything else. -/
  marks : Nat := 1
  /-- The events of the present step, the latest first. -/
  events : List Event := []

namespace Store

/-- The iterator without elements. -/
def emptyIterator : Value := .object 0

/-- The object behind a value. -/
def cell? (s : Store) : Value → Option Cell
  | .object id => s.cells[id]?
  | _ => none

/-- The iterator behind a value. -/
def iterator? (s : Store) (v : Value) : Option Iterator :=
  match s.cell? v with
  | some (.iterator it) => some it
  | _ => none

/-- The store with a cell replaced. -/
def setCell (s : Store) (id : Id) (c : Cell) : Store :=
  { s with cells := s.cells.setIfInBounds id c }

/-- The store with an iterator replaced. -/
def setIterator (s : Store) (v : Value) (it : Iterator) : Store :=
  match v with
  | .object id => s.setCell id (.iterator it)
  | _ => s

/-- A new object. -/
def alloc (c : Cell) : Act Store Value := fun s =>
  .value (.object s.cells.size) { s with cells := s.cells.push c }

/-- A new mark. -/
def mark : Act Store Nat := fun s => .value s.marks { s with marks := s.marks + 1 }

/-- A new float or another number with this content. -/
def number (p : Plain) : Act Store Value := do return p.toValue (← mark)

/-- A value with a new mark, if it has one. -/
def remark : Value → Act Store Value
  | .float bits _ => number (.float bits)
  | v => pure v

/-- A new scalar. -/
def scalar (kind : ElementKind) (p : Plain) : Act Store Value := do
  return .scalar kind p (← mark)

/-- Replace an object. -/
def put (id : Id) (c : Cell) : Act Store Unit := Act.update (·.setCell id c)

/-- Record an event. -/
def emit (e : Event) : Act Store Unit := Act.update fun s => { s with events := e :: s.events }

/-- Bind a name. -/
def bindName (name : String) (v : Value) : Act Store Unit := Act.update fun s =>
  { s with names := (name, v) :: s.names.filter (·.1 != name) }

/-- The value of a name. -/
def valueOf (name : String) : Act Store Value := do
  match ← Act.reading (·.names.lookup name) with
  | some v => pure v
  | none => Act.fail .unbound

/-- The events of the step so far, in order; the record is cleared. -/
def takeEvents : Act Store (List Event) := fun s =>
  .value s.events.reverse { s with events := [] }

end Store

/-! ## §5. The states of iterators, as parts of the store. -/

/-- The part of the store that `select` finds in the iterator `v`. -/
def part {τ : Type} (v : Value) (fallback : τ) (select : Iterator → Option τ)
    (replace : τ → Iterator → Iterator) : Field Store τ where
  get s := ((s.iterator? v).bind select).getD fallback
  set t s :=
    match s.iterator? v with
    | some it => s.setIterator v (replace t it)
    | none => s

end Cursors.Workspace
