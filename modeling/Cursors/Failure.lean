/-
  Cursors.Failure
  ───────────────
  **WHY AN OPERATION FAILS.**

  Every operation either answers or fails with one of the causes below.
  The end of a sequence is such a cause as well: the layers that look ahead
  tell it from the others by `Failure.isEnd`.  A cause is data; its kind and
  its wording are read off by `Failure.kind` and `Failure.message?`.
-/
import Cursors.Text.Quoted

namespace Cursors

/-! ## §1. The causes. -/

/-- The editing operations of an iterator. -/
inductive Edit where
  | remove
  | set
  | add
  deriving DecidableEq, Repr

/-- The name of an editing operation, as messages show it. -/
def Edit.name : Edit → String
  | .remove => "remove"
  | .set => "set"
  | .add => "add"

/-- The refusals of plain values and containers: of these only the kind is told. -/
inductive Refusal where
  /-- The value is of a type that has no such operation. -/
  | type
  /-- The position lies outside of the container. -/
  | index
  /-- The container has no such key. -/
  | key
  /-- The value is of the right type and not acceptable. -/
  | value
  /-- The object has no operation of that name. -/
  | attribute
  /-- The number does not fit. -/
  | overflow
  /-- The container changed while it was walked, or a choice is ambiguous. -/
  | runtime
  /-- The operation is only declared. -/
  | unimplemented
  /-- A number was divided by zero. -/
  | zeroDivision
  /-- More elements are announced than can be held. -/
  | memory
  /-- Something is nested too deep. -/
  | recursion
  /-- There is no such operation between numbers of a grid and texts. -/
  | kinds
  deriving DecidableEq, Repr

/-- What a looping iterator calls the thing that it loops over. -/
inductive Looped where
  | collection
  | list
  deriving DecidableEq, Repr

/-- The causes of a failure. -/
inductive Failure where
  /-- The sequence has no further element. -/
  | ended
  /-- The user's code raised an error of this kind. -/
  | raised (kind : String) (text : Option String)
  /-- A plain value or container refused. -/
  | refused (refusal : Refusal)
  /-- A plain value or container refused on account of another failure. -/
  | refusedFor (refusal : Refusal) (cause : Failure)
  /-- A step of a lazily computed sequence signalled an end of its own. -/
  | endedInside (cause : Failure)
  /-- An edit needs a preceding move; `bothWays` if a backward move would do as well. -/
  | notMoved (edit : Edit) (bothWays : Bool)
  /-- An edit came while an element was held ahead. -/
  | heldAhead (edit : Edit) (bothWays : Bool)
  /-- There is nothing to remove at all. -/
  | nothingHeld
  /-- The iterator does not provide this edit. -/
  | unsupported (owner : String) (edit : Edit)
  /-- The iterator was asked to refuse edits. -/
  | strict (edit : Edit)
  /-- The looped collection of this type cannot lose elements. -/
  | fixedSize (typeName : String)
  /-- A chain cannot grow once it was used. -/
  | chainInUse
  /-- The looped container changed its size behind the iterator's back. -/
  | resized (what : Looped) (expected actual : Nat)
  /-- The argument of this name is missing. -/
  | missing (name : String)
  /-- The argument of this name cannot be called. -/
  | notCallable (name : String)
  /-- A bidirectional iterator is needed. -/
  | notBidirectional
  /-- The argument described so is not an integer. -/
  | notInteger (what : String)
  /-- The window or cursor would start outside of the container. -/
  | startOutside
  /-- The window would end outside of the container. -/
  | endOutside
  /-- The window would end before its start. -/
  | endBeforeStart
  /-- A merge needs two sources. -/
  | tooFewSources
  /-- The estimated size is below one. -/
  | sizeNotPositive
  /-- There is no such error mode. -/
  | unknownMode
  /-- The user's function failed on an element; `report` names the element and the place. -/
  | evaluation (report : String) (cause : Failure)
  /-- The name was never bound. -/
  | unbound
  deriving DecidableEq, Repr

namespace Failure

/-! ## §2. Kind and wording. -/

/-- The kind of a refusal. -/
def refusalKind : Refusal → String
  | .type => "TypeError"
  | .index => "IndexError"
  | .key => "KeyError"
  | .value => "ValueError"
  | .attribute => "AttributeError"
  | .overflow => "OverflowError"
  | .runtime => "RuntimeError"
  | .unimplemented => "NotImplementedError"
  | .zeroDivision => "ZeroDivisionError"
  | .memory => "MemoryError"
  | .recursion => "RecursionError"
  | .kinds => "UFuncTypeError"

/-- The kind under which a failure is reported. -/
def kind : Failure → String
  | .ended => "StopIteration"
  | .raised kind _ => kind
  | .refused r | .refusedFor r _ => refusalKind r
  | .endedInside _ => "RuntimeError"
  | .notMoved .. | .heldAhead .. | .nothingHeld => "IllegalStateError"
  | .unsupported .. | .strict _ | .fixedSize _ | .chainInUse => "UnsupportedOperationError"
  | .resized .. => "ConcurrentModificationError"
  | .missing _ | .notCallable _ | .notBidirectional | .notInteger _ => "TypeError"
  | .startOutside | .endOutside => "IndexError"
  | .endBeforeStart | .tooFewSources | .sizeNotPositive | .unknownMode => "ValueError"
  | .evaluation .. => "EvaluationError"
  | .unbound => "Unbound"

/-- The operations by which an element becomes the one that an edit acts on. -/
def moves (bothWays : Bool) : String :=
  if bothWays then "next() or previous()" else "next()"

/-- The operations that hold an element ahead. -/
def lookaheads (bothWays : Bool) : String :=
  if bothWays then "has_next() or has_previous()" else "has_next()"

/-- The name of the looped thing. -/
def loopedName : Looped → String
  | .collection => "collection"
  | .list => "list"

/-- The wording of a failure, where it has one of its own. -/
def message? : Failure → Option String
  | .ended | .refused _ | .refusedFor .. | .endedInside _ | .unbound => none
  | .raised kind text =>
      some (match text with
        | none => ""
        | some t => if kind == "KeyError" then Text.quoted t else t)
  | .notMoved edit bothWays =>
      some (edit.name ++ "() must follow a call to " ++ moves bothWays)
  | .heldAhead edit bothWays =>
      some (edit.name ++ "() cannot be called after " ++ lookaheads bothWays)
  | .nothingHeld => some "iterator contains no elements"
  | .unsupported owner edit => some (owner ++ " does not support " ++ edit.name)
  | .strict edit => some (edit.name ++ "() is not supported in strict mode")
  | .fixedSize typeName => some ("remove() requires a mutable sequence, got " ++ typeName)
  | .chainInUse => some "IteratorChain cannot be changed after the first use"
  | .resized what expected actual =>
      some (loopedName what ++ " size changed from " ++ toString expected ++ " to "
        ++ toString actual ++ " during iteration")
  | .missing name => some (name ++ " must not be None")
  | .notCallable name => some (name ++ " must be callable")
  | .notBidirectional => some "iterator must be a list iterator"
  | .notInteger what => some what
  | .startOutside => some "start index out of range"
  | .endOutside => some "end index out of range"
  | .endBeforeStart => some "end must not be less than start"
  | .tooFewSources => some "at least two iterators must be provided"
  | .sizeNotPositive => some "estimated_size must be greater than 0"
  | .unknownMode => some "evaluation must be 'wrap' or 'passthrough'"
  | .evaluation report _ => some report

/-- The failure that this one stands for, if it was raised on account of another. -/
def cause? : Failure → Option Failure
  | .endedInside cause | .evaluation _ cause | .refusedFor _ cause => some cause
  | _ => none

/-- A failure in one line of a log: its kind, with its text if it comes from the user's code. -/
def summary : Failure → String
  | .raised kind none => kind ++ "()"
  | .raised kind (some text) => kind ++ "(" ++ Text.quoted text ++ ")"
  | f => f.kind

/-! ## §3. Classes of failures. -/

/-- The failure says that a sequence has ended. -/
def isEnd : Failure → Bool
  | .ended => true
  | .raised kind _ => kind == "StopIteration"
  | _ => false

/-- The failure already reports the evaluation of an element. -/
def isEvaluation : Failure → Bool
  | .evaluation .. => true
  | .raised kind _ => kind == "EvaluationError"
  | _ => false

/-- The kinds of the requests to leave the program. -/
def exitKinds : List String :=
  ["KeyboardInterrupt", "SystemExit", "GeneratorExit", "BaseException", "CancelledError"]

/-- The failure may be caught: only requests to leave the program may not. -/
def isOrdinary : Failure → Bool
  | .raised kind _ => !exitKinds.contains kind
  | _ => true

/-- The failure says that a position lies outside of a container. -/
def isOutside : Failure → Bool
  | .refused .index | .refusedFor .index _ | .startOutside | .endOutside => true
  | .raised kind _ => kind == "IndexError"
  | _ => false

end Failure

end Cursors
