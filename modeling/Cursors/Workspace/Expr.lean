/-
  Cursors.Workspace.Expr
  ──────────────────────
  **EXPRESSIONS.**

  What a script may write down: plain values, containers, callbacks,
  classes with chosen capabilities, iterators built by the library, and
  calls.  The parts that can hold expressions are generic in the type of
  these, so that each can be read on its own.
-/
import Cursors.Failure
import Cursors.Number.Width
import Cursors.Workspace.Operation
import Cursors.Workspace.Recipe

namespace Cursors.Workspace

/-! ## §1. Parts that hold expressions. -/

/-- One step of a scripted source. -/
inductive Item (ε : Type) where
  | value (e : ε)
  | fails (cause : Failure)
  | ends
  deriving Repr, Inhabited

/-- What a member of a class does. -/
inductive Member (ε : Type) where
  /-- Calling it gives an iterator over these items. -/
  | gives (items : List (Item ε))
  /-- Calling it gives this value. -/
  | returns (e : ε)
  /-- Calling it fails. -/
  | fails (cause : Failure)
  /-- It is the value of an expression and cannot be called. -/
  | plain (e : ε)
  /-- It is there and cannot be called. -/
  | uncallable
  /-- It is marked as absent. -/
  | absent
  deriving Repr, Inhabited

/-- How a class answers to subscripts. -/
inductive Lookup (ε : Type) where
  /-- By position. -/
  | byPosition (items : List (Item ε))
  /-- By key. -/
  | byKey (entries : List (ε × ε))
  /-- Always with this failure. -/
  | fails (cause : Failure)
  deriving Repr, Inhabited

/-- The members of a class that can be given. -/
inductive MemberName where
  | iter
  | iterator
  | keys
  | values
  | item
  deriving DecidableEq, Repr

/-- A class with chosen capabilities. -/
structure ClassSpec (ε : Type) where
  name : String
  members : List (MemberName × Member ε) := []
  lookup : Option (Lookup ε) := none
  length : Option Int := none
  contains : Bool := false
  next : Option (List (Item ε)) := none
  shape : Option ε := none
  mapping : Bool := false
  deriving Repr, Inhabited

/-- The member of this name. -/
def ClassSpec.member? {ε : Type} (c : ClassSpec ε) (name : MemberName) : Option (Member ε) :=
  c.members.lookup name

/-- A function of the user. -/
inductive Callback (ε : Type) where
  | identity
  | even
  | odd
  | negate
  | greater (n : Int)
  | less (n : Int)
  | plus (n : Int)
  | times (n : Int)
  /-- Whether the argument leaves the rest `r` modulo `m`. -/
  | residue (m r : Int)
  /-- The pair of the argument and itself. -/
  | pair
  /-- The list of the argument alone. -/
  | wrap
  | isNull
  | isText
  /-- An iterator over the children of a node or the elements of a list; else the argument. -/
  | children
  /-- Whether the argument looks like one of these. -/
  | oneOf (es : List ε)
  /-- The second half of the first row whose first half looks like the argument. -/
  | table (rows : List (ε × ε))
  /-- The sign of the difference of two integers. -/
  | compare
  /-- The first argument less the second. -/
  | difference
  /-- The second argument less the first. -/
  | reversed
  /-- The difference of the elements with this index. -/
  | byIndex (i : Int)
  | const (e : ε)
  | negated (f : Callback ε)
  | fails (cause : Failure)
  /-- Fails if an argument looks like one of these. -/
  | failsOn (es : List ε) (cause : Failure) (f : Callback ε)
  /-- One result after the other; the last one repeats. -/
  | results (items : List (Item ε))
  /-- Asks an operation of a named object first. -/
  | after (name : String) (operation : Operation) (arguments : List ε) (f : Callback ε)
  deriving Repr, Inhabited

/-! ## §2. Kinds of plain data. -/

/-- A row of bytes: constant, changeable, or a view of a constant one. -/
inductive BytesKind where
  | constant
  | changeable
  | view
  deriving DecidableEq, Repr

/-- The elements of a packed array. -/
inductive PackedKind where
  | int8
  | int32
  | double
  deriving DecidableEq, Repr

/-- The elements of a grid. -/
inductive ElementKind where
  | bool
  | integer (width : Number.Width)
  | float (bits : Nat)
  deriving DecidableEq, Repr

/-! ## §3. Expressions. -/

/-- An expression. -/
inductive Expr where
  | null
  | bool (b : Bool)
  | int (n : Int)
  | float (bits : UInt64)
  | text (s : String)
  | list (items : List Expr)
  | tuple (items : List Expr)
  | deque (items : List Expr)
  | set (frozen : Bool) (items : List Expr)
  | dict (entries : List (Expr × Expr))
  | bytes (kind : BytesKind) (data : List UInt8)
  | range (start stop step : Int)
  | packed (kind : PackedKind) (items : List Expr)
  | grid (kind : ElementKind) (shape : List Nat) (items : List Expr)
  | scalar (kind : ElementKind) (item : Expr)
  | node (children : List Expr)
  | nest (depth : Nat) (e : Expr)
  | builtin (name : String)
  | callback (f : Callback Expr) (label : Option String)
  | ref (name : String)
  | iterate (e : Expr)
  | count (start step : Expr)
  | probe (twoWay : Bool) (label : String) (items : List (Item Expr))
  | object (spec : ClassSpec Expr)
  | type (spec : ClassSpec Expr)
  | make (recipe : Recipe) (arguments : List Expr)
  | call (name : String) (operation : Operation) (arguments : List Expr)
  /-- An expression of no known form. -/
  | unreadable
  deriving Inhabited

end Cursors.Workspace
