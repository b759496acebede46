/-
  Cursors.Workspace.Script
  ────────────────────────
  **SCRIPTS.**

  A script is a row of steps on one workspace.  Each step gives a result,
  whatever became of the steps before it, together with the events that it
  caused and the present documents of the watched names.  The steps of a
  thread share the workspace but start in an error mode of their own.
-/
import Cursors.Workspace.Respond

namespace Cursors.Workspace

/-! ## §1. Steps and their results. -/

/-- A step of a script. -/
inductive Step where
  /-- Bind a name to the value of an expression. -/
  | bind (name : String) (e : Expr)
  | evaluate (e : Expr)
  | reveal (name : String)
  /-- Whether two expressions give the same object. -/
  | same (a b : Expr)
  | ask (op : Operation) (name : String) (arguments : List Expr)
  /-- All elements of a named value. -/
  | drain (name : String)
  /-- The next elements, at most so many; sorted on demand. -/
  | take (sorted : Bool) (name : String) (count : Nat)
  /-- The previous elements, at most so many. -/
  | takeBack (name : String) (count : Nat)
  | capabilities (name : String)
  /-- An operation that an interface only declares. -/
  | declared
  /-- The steps of a thread. -/
  | thread (steps : List Step)
  deriving Inhabited

/-- What a step came to. -/
inductive Result where
  | value (d : Document)
  | failure (e : Failure)
  /-- The elements taken, and the failure that cut them short. -/
  | taken (items : List Document) (cut : Option Failure)
  /-- The step did not come to an end. -/
  | exhausted
  /-- The results of the steps of a thread, with their events. -/
  | steps (results : List (Result × List Event))

/-- A result with its events and the documents of the watched names. -/
structure Answer where
  result : Result
  events : List Event
  watched : Option (List Document)

/-- A script. -/
structure Script where
  steps : List Step
  watch : Option (List String) := none
  frames : List Frame := []

/-! ## §2. Single steps. -/

/-- The bounds of a run. -/
structure Bounds where
  /-- The depth to which requests are nested. -/
  depth : Nat
  /-- The length of a search. -/
  length : Nat

namespace Bounds

/-- Bounds that the scripts of a workspace do not reach. -/
def standard : Bounds where
  depth := 1000
  length := 1000000000

/-- Make a request within bounds. -/
def run (bounds : Bounds) : Runner := invoke bounds.length bounds.depth

end Bounds

/-- Whether two values are the same object. -/
def Store.identical (s : Store) (a b : Value) : Bool :=
  match s.cell? a, s.cell? b with
  | some (.builtin x), some (.builtin y) => x == y
  | _, _ => a == b

/-- The documents of at most `count` answers, put behind those in `taken`, and the failure that
cut them short. -/
def takeFrom (pull : Act Store Value) : Nat → List Document →
    Act Store (List Document × Option Failure)
  | 0, taken => pure (taken.reverse, none)
  | count + 1, taken => do
      match ← Act.attempt (fun _ => true) pull with
      | .ok x => do
          let d ← documentOf x
          takeFrom pull count (d :: taken)
      | .error e => return (taken.reverse, some e)

/-- Carry out a step that is not a thread. -/
def simpleStep (bounds : Bounds) : Step → Act Store Result
  | .bind name e => do
      let v ← bounds.run (.evaluate e)
      Store.bindName name v
      return .value (← documentOf v)
  | .evaluate e => do return .value (← documentOf (← bounds.run (.evaluate e)))
  | .reveal name => do return .value (← documentOf (← Store.valueOf name))
  | .same a b => do
      let a ← bounds.run (.evaluate a)
      let b ← bounds.run (.evaluate b)
      return .value (.bool (← Act.reading (·.identical a b)))
  | .ask op name es => do
      let target ← Store.valueOf name
      let arguments ← evaluateAll bounds.run es
      return .value (← documentOf (← bounds.run (.ask target op arguments)))
  | .drain name => do
      let items ← drain bounds.run bounds.length (← Store.valueOf name)
      return .value (.list (← documentsOf items))
  | .take sorted name count => do
      let target ← Store.valueOf name
      if ← Act.reading (·.hasAdvance target) then
        let (items, cut) ← takeFrom (bounds.run (.advance target)) count []
        return .taken (if sorted then Document.sorted items else items) cut
      else noSuchOperation
  | .takeBack name count => do
      let target ← Store.valueOf name
      if ← Act.reading (·.isTwoWay target) then
        let (items, cut) ← takeFrom (bounds.run (.ask target .previous [])) count []
        return .taken items cut
      else noSuchOperation
  | .capabilities name => do
      let v ← Store.valueOf name
      return .value (.list ((← Act.reading (·.capabilities v)).map .text))
  | .declared => Act.fail (.refused .unimplemented)
  | .thread _ => pure (.steps [])

/-- The result of a step together with its events, and the workspace after it. -/
def record (x : Act Store Result) (s : Store) : (Result × List Event) × Store :=
  let close (r : Result) (s : Store) := ((r, s.events.reverse), { s with events := [] })
  match x s with
  | .value r s => close r s
  | .failure e s => close (.failure e) s
  -- What an unfinished step did is not known: it is taken back.
  | .unfinished => close .exhausted s

mutual

/-- Carry out a step. -/
def runStep (bounds : Bounds) : Step → Store → (Result × List Event) × Store
  | .thread steps, s =>
      -- The error mode is the thread's own: it starts anew and goes with the thread.
      let (results, t) := runSteps bounds steps { s with mode := .wrap }
      ((.steps results, []), { t with mode := s.mode })
  | step, s => record (simpleStep bounds step) s

/-- Carry out steps one after the other. -/
def runSteps (bounds : Bounds) : List Step → Store → List (Result × List Event) × Store
  | [], s => ([], s)
  | step :: rest, s =>
      let (r, t) := runStep bounds step s
      let (results, u) := runSteps bounds rest t
      (r :: results, u)

end

/-! ## §3. Whole scripts. -/

/-- The document of the value of a name, if it is bound. -/
def Store.watched (s : Store) (name : String) : Document :=
  match s.names.lookup name with
  | some v => (s.document v).toOption.getD .null
  | none => .null

/-- Carry out the steps of a script, watching names. -/
def answerSteps (bounds : Bounds) (watch : Option (List String)) :
    List Step → Store → List Answer
  | [], _ => []
  | step :: rest, s =>
      let ((result, events), t) := runStep bounds step s
      { result := result, events := events, watched := watch.map (·.map t.watched) }
        :: answerSteps bounds watch rest t

/-- Carry out a script in a new workspace. -/
def Script.run (bounds : Bounds) (script : Script) : List Answer :=
  answerSteps bounds script.watch script.steps { frames := script.frames }

end Cursors.Workspace
