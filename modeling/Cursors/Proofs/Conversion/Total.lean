/-
  Cursors.Proofs.Conversion.Total
  ───────────────────────────────
  **WHEN CONVERSION IS TOTAL.**

  Three kinds of values are told apart by what the conversion calls:

      settled    nothing of the user's            always an iterator
      searched   up to three guarded lookups      always an iterator,
                                                  at last the value alone
      trusted    one call without a guard         an iterator if the call
                                                  gives one

  The last kind are the objects of classes that are maps or collections, and
  with it go those that are iterators and collections at once, between which
  no choice is made.  `Reliable` says what is asked of such an object, and
  the conversion is total for exactly the objects that keep to it.
-/
import Cursors.Proofs.Conversion.Lookup
import Cursors.Workspace.Respond

namespace Cursors.Workspace

/-! ## §1. Sound stores. -/

/-- Whether a cell is an array: a view of bytes, a row of packed numbers, or a grid with axes. -/
def Cell.isArray : Cell → Bool
  | .bytes .view _ | .packed .. | .grid _ (_ :: _) .. => true
  | _ => false

/-- The shared iterator is where it belongs, and no array is longer than sizes go. -/
structure Store.Sound (s : Store) : Prop where
  shared : s.cells[0]? = some (.iterator .empty)
  sizes : ∀ id c n, s.cells[id]? = some c → c.isArray = true →
    s.length? (.object id) = some n → sizeWidth.holds n = true

/-! ## §2. What is taken on trust. -/

/-- The call that the conversion of an object makes without a guard: of maps the walk over their
values, of collections their own walk. -/
def ClassRecord.unguarded (run : Runner) (record : ClassRecord) (v : Value) :
    Option (Act Store Value) :=
  if record.spec.mapping then
    (record.spec.member? .values).map fun member => do run (.walk (← callMember run member))
  else if record.isCollection && !record.isIterator then some (run (.walk v))
  else none

/-- Whether the objects of a class are iterators and collections at once, and no maps. -/
def ClassRecord.isAmbiguous (record : ClassRecord) : Bool :=
  !record.spec.mapping && record.isIterator && record.isCollection

/-- An object is reliable if its class is not ambiguous, and if what is called without a guard
gives an iterator. -/
structure ClassRecord.Reliable (run : Runner) (record : ClassRecord) (v : Value) (s : Store) :
    Prop where
  unambiguous : record.isAmbiguous = false
  answers : ∀ call, record.unguarded run v = some call → call.After s GivesIterator

/-- Whether the class of an object leaves its conversion open. -/
def ClassRecord.isSearched (record : ClassRecord) : Bool :=
  !record.spec.mapping && !record.isIterator && !record.isCollection

/-- What the conversion of an object can be. -/
inductive ObjectRoute (run : Runner) (fuel : Nat) (record : ClassRecord) (v : Value) :
    Act Store Value → Prop
  /-- A call without a guard. -/
  | trusted {call : Act Store Value} (hclass : record.isAmbiguous = false)
      (hcall : record.unguarded run v = some call) : ObjectRoute run fuel record v call
  /-- A walk over the entries, for a map that says nothing of its values. -/
  | entries (hclass : record.isAmbiguous = false) (hcall : record.unguarded run v = none) :
      ObjectRoute run fuel record v (Store.alloc (.stream (.entries v none)))
  /-- The object itself. -/
  | itself (hclass : record.isAmbiguous = false) (hcall : record.unguarded run v = none)
      (hiterator : record.isIterator = true) : ObjectRoute run fuel record v (pure v)
  /-- The guarded lookups. -/
  | searched (hclass : record.isAmbiguous = false) (hcall : record.unguarded run v = none)
      (hopen : record.isSearched = true) :
      ObjectRoute run fuel record v (firstOrSingle v (lookupWays run fuel v))
  /-- None at all. -/
  | refused (hclass : record.isAmbiguous = true) :
      ObjectRoute run fuel record v (Act.fail (.refused .runtime))

section

variable {run : Runner} {fuel : Nat} {v : Value} {s : Store} {record : ClassRecord} {given : Nat}

theorem objectIterator_route (run : Runner) (fuel : Nat) (record : ClassRecord) (v : Value) :
    ObjectRoute run fuel record v (objectIterator run fuel record v) := by
  cases hmapping : record.spec.mapping with
  | true =>
      have hclass : record.isAmbiguous = false := by simp [ClassRecord.isAmbiguous, hmapping]
      simp only [objectIterator, mapValues, hmapping, if_true]
      cases hvalues : record.spec.member? .values with
      | none => exact .entries hclass (by simp [ClassRecord.unguarded, hmapping, hvalues])
      | some member => exact .trusted hclass (by simp [ClassRecord.unguarded, hmapping, hvalues])
  | false =>
      cases hiterator : record.isIterator <;> cases hcollection : record.isCollection
      -- Both at once is the only ambiguous class.
      case true.true =>
        simp only [objectIterator, hmapping, hiterator, hcollection]
        exact .refused (by simp [ClassRecord.isAmbiguous, hmapping, hiterator, hcollection])
      all_goals
        have hclass : record.isAmbiguous = false := by
          simp [ClassRecord.isAmbiguous, hmapping, hiterator, hcollection]
      case true.false =>
        simp only [objectIterator, hmapping, hiterator, hcollection]
        exact .itself hclass (by simp [ClassRecord.unguarded, hmapping, hcollection]) hiterator
      case false.true =>
        simp only [objectIterator, hmapping, hiterator, hcollection]
        exact .trusted hclass (by simp [ClassRecord.unguarded, hmapping, hiterator, hcollection])
      case false.false =>
        simp only [objectIterator, hmapping, hiterator, hcollection, fromSubscripts_eq]
        exact .searched hclass (by simp [ClassRecord.unguarded, hmapping, hcollection])
          (by simp [ClassRecord.isSearched, hmapping, hiterator, hcollection])

/-- The conversion of an object of a scripted class gives an iterator exactly if the object is
reliable. -/
theorem after_objectIterator_iff (hv : s.cell? v = some (.custom record given)) :
    (objectIterator run fuel record v).After s GivesIterator ↔ record.Reliable run v s := by
  have hroute := objectIterator_route run fuel record v
  generalize objectIterator run fuel record v = x at hroute ⊢
  cases hroute with
  | trusted hclass hcall =>
      refine ⟨fun h => ⟨hclass, fun call hanother => ?_⟩, fun h => h.answers _ hcall⟩
      exact Option.some.inj (hcall.symm.trans hanother) ▸ h
  | entries hclass hcall =>
      exact ⟨fun _ => ⟨hclass, by simp [hcall]⟩, fun _ => (answers_of_stream rfl).after⟩
  | itself hclass hcall hiterator =>
      refine ⟨fun _ => ⟨hclass, by simp [hcall]⟩, fun _ => Act.after_pure ?_⟩
      show s.isIterator v = true
      unfold Store.isIterator
      rw [hv]
      exact hiterator
  | searched hclass hcall =>
      exact ⟨fun _ => ⟨hclass, by simp [hcall]⟩,
        fun _ => after_firstOrSingle (lookupWays_lead run fuel v)⟩
  | refused hclass =>
      -- The refusal is a failure that may be caught, and so is none that a conversion may show.
      refine ⟨fun h => ?_, fun h => ?_⟩
      · cases h
      · cases h.unambiguous.symm.trans hclass

end

/-! ## §3. Values that are searched. -/

/-- Whether a value stands for itself whatever it contains: texts and constant bytes do. -/
def Store.standsAlone (s : Store) (v : Value) : Bool :=
  match v, s.cell? v with
  | .text _, _ | _, some (.bytes .constant _) => true
  | _, _ => false

/-- Whether the kind of an object leaves its conversion open. -/
def Cell.isSearched : Cell → Bool
  | .elements _ | .node _ | .builtin _ | .type _ | .callback .. => true
  | .custom record _ => record.isSearched
  | _ => false

/-- Whether the kind of a value leaves its conversion open. -/
def Store.isSearched (s : Store) (v : Value) : Bool :=
  match v, s.cell? v with
  | .null, _ | .scalar .., _ | .text _, _ => false
  | _, some c => c.isSearched
  | _, none => true

/-- The ways that are tried for a value, if its kind leaves any open at all. -/
def searchedWays (run : Runner) (fuel : Nat) (v : Value) (s : Store) : Option (List Way) :=
  if s.standsAlone v then some []
  else if s.isSearched v then some (lookupWays run fuel v)
  else none

section

variable {run : Runner} {fuel : Nat} {v : Value} {s : Store} {ways : List Way}

theorem searchedWays_cases (h : searchedWays run fuel v s = some ways) :
    s.standsAlone v = true ∧ ways = [] ∨
      s.isSearched v = true ∧ ways = lookupWays run fuel v := by
  unfold searchedWays at h
  cases halone : s.standsAlone v with
  | true => exact .inl ⟨rfl, by simpa [halone] using h.symm⟩
  | false =>
      cases hopen : s.isSearched v with
      | true => exact .inr ⟨rfl, by simpa [halone, hopen] using h.symm⟩
      | false => simp [halone, hopen] at h

/-- Of what is no object no way gives anything. -/
theorem firstOrSingle_of_bare (hcell : s.cell? v = none) (hwalk : s.isIterable v = false) :
    firstOrSingle v (lookupWays run fuel v) s = singleOver v s := by
  have hown : (ownWay run v).attempt v s = .value none s := by
    refine Way.attempt_of_value rfl ?_
    simp [ownWay, ownIterator, ownIterator.walkOver, Act.bind_apply, hcell, hwalk]
  have hsubscripts : (subscriptsWay run v).isOpen s = false := by
    simp [subscriptsWay, Store.outfit, hcell]
  have hkeys : (keysWay run fuel v).isOpen s = false := by simp [keysWay, Store.outfit, hcell]
  rw [lookupWays, firstOrSingle_cons_of_none (Way.attempt_of_closed hsubscripts),
    firstOrSingle_cons_of_none (Way.attempt_of_closed hkeys), firstOrSingle_cons_of_none hown]
  rfl

theorem suitableIterator_of_alone (h : s.standsAlone v = true) :
    suitableIterator run fuel v s = singleOver v s := by
  cases v with
  | null | bool | int | float | scalar => cases h
  | text => rfl
  | object id =>
      cases hc : s.cells[id]? with
      | none => simp [Store.standsAlone, Store.cell?, hc] at h
      | some c =>
          cases c with
          | bytes kind data =>
              cases kind with
              | constant =>
                  simp only [suitableIterator, Act.bind_apply, Act.reading_apply, Store.cell?, hc]
              | changeable | view => simp [Store.standsAlone, Store.cell?, hc] at h
          | _ => simp [Store.standsAlone, Store.cell?, hc] at h

theorem suitableIterator_of_open (h : s.isSearched v = true) :
    suitableIterator run fuel v s = firstOrSingle v (lookupWays run fuel v) s := by
  cases v with
  | null | scalar | text => cases h
  | bool | int | float => exact (firstOrSingle_of_bare rfl rfl).symm
  | object id =>
      cases hc : s.cells[id]? with
      | none =>
          rw [firstOrSingle_of_bare (by exact hc) (by simp [Store.isIterable, Store.cell?, hc])]
          simp only [suitableIterator, Act.bind_apply, Act.reading_apply, Store.cell?, hc]
      | some c =>
          simp only [Store.isSearched, Store.cell?, hc] at h
          cases c with
          | elements | node | builtin | type | callback =>
              simp only [suitableIterator, Act.bind_apply, Act.reading_apply, Store.cell?, hc,
                fromSubscripts_eq]
          | custom record given =>
              simp only [Cell.isSearched, ClassRecord.isSearched, Bool.and_eq_true,
                Bool.not_eq_true'] at h
              obtain ⟨⟨hmapping, hiterator⟩, hcollection⟩ := h
              simp [suitableIterator, Act.bind_apply, Store.cell?, hc, objectIterator, hmapping,
                hiterator, hcollection, fromSubscripts_eq]
          | _ => cases h

/-- The conversion of a value that is searched is the search. -/
theorem suitableIterator_of_searched (h : searchedWays run fuel v s = some ways) :
    suitableIterator run fuel v s = firstOrSingle v ways s := by
  obtain ⟨halone, rfl⟩ | ⟨hopen, rfl⟩ := searchedWays_cases h
  · exact suitableIterator_of_alone halone
  · exact suitableIterator_of_open hopen

theorem after_suitableIterator_of_searched (h : searchedWays run fuel v s = some ways) :
    (suitableIterator run fuel v).After s GivesIterator := by
  have hways : ∀ way ∈ ways, way.Leads := by
    obtain ⟨-, rfl⟩ | ⟨-, rfl⟩ := searchedWays_cases h
    · simp
    · exact lookupWays_lead run fuel v
  exact (after_firstOrSingle hways).of_eq (suitableIterator_of_searched h)

end

/-! ## §4. Values whose kind settles the conversion. -/

/-- Whether a cell is a container that is walked where an iterator over it is needed. -/
def Cell.isWalked : Cell → Bool
  | .list _ | .tuple _ | .deque .. | .set .. | .range .. | .bytes .changeable _ => true
  | _ => false

section

variable {run : Runner} {fuel : Nat} {v : Value} {s : Store} {id : Id} {c : Cell}

/-- The walk over a container. -/
theorem answers_startWalk (hc : s.cells[id]? = some c) (hwalked : c.isWalked = true) :
    AnswersIterator (startWalk run (.object id)) s := by
  cases c with
  | list | tuple | deque | set | range | bytes =>
      exact answers_of_stream (by
        simp only [startWalk, Act.bind_apply, Act.reading_apply, Store.cell?, hc]; rfl)
  | _ => cases hwalked

/-- A grid without axes is made plain. -/
theorem plainValue_of_grid (run : Runner) (fuel : Nat) {kind : ElementKind} {elements : Id}
    {offset : Nat} (hc : s.cells[id]? = some (.grid kind [] elements offset)) :
    ∃ x t, plainValue run fuel (.object id) s = .value x t := by
  cases hitems : s.gridItems [] elements offset with
  | nil => exact ⟨.object id, s, by simp [plainValue, Act.bind_apply, Store.cell?, hc, hitems]⟩
  | cons p rest =>
      have hplain : plainValue run fuel (.object id) s = Store.number p s := by
        simp [plainValue, Act.bind_apply, Store.cell?, hc, hitems]
      exact ⟨_, _, hplain⟩

/-- The window over an array. -/
theorem answers_windowOver {n : Nat} (hlength : s.length? v = some (n : Int))
    (hfits : sizeWidth.holds n = true) : AnswersIterator (windowOver v) s := by
  have hsize : sizeOf v s = .value n s := by
    have hpos : ¬ ((n : Int) < 0) := by omega
    simp [sizeOf, Act.bind_apply, hlength, hfits, hpos]
  have hwindow : windowOver v s =
      Store.alloc (.iterator (.window v (.fresh (.plain 0) (.plain n)))) s := by
    simp only [windowOver, Act.bind_apply, hsize]
  exact answers_of_iterator hwindow

theorem Store.Sound.answers_windowOver (hs : s.Sound) (hc : s.cells[id]? = some c)
    (harray : c.isArray = true) : AnswersIterator (windowOver (.object id)) s := by
  obtain ⟨n, hlength⟩ : ∃ n : Nat, s.length? (.object id) = some (n : Int) := by
    cases c with
    | bytes kind data => exact ⟨data.length, by simp [Store.length?, Store.cell?, hc]⟩
    | packed kind items => exact ⟨items.length, by simp [Store.length?, Store.cell?, hc]⟩
    | grid kind shape elements offset =>
        cases shape with
        | nil => cases harray
        | cons n inner => exact ⟨n, by simp [Store.length?, Store.cell?, hc]⟩
    | _ => cases harray
  exact Workspace.answers_windowOver hlength (hs.sizes id c n hc harray hlength)

/-- What the conversion makes of a value that is neither searched nor an object of a scripted
class. -/
theorem answers_of_settled (depth : Nat) (hs : s.Sound)
    (hv : ∀ record given, s.cell? v ≠ some (.custom record given))
    (h : searchedWays (invoke fuel (depth + 1)) fuel v s = none) :
    AnswersIterator (suitableIterator (invoke fuel (depth + 1)) fuel v) s := by
  cases v with
  | bool | int | float | text => cases h
  | null =>
      have hempty : s.isIterator Store.emptyIterator = true := by
        simp [Store.isIterator, Store.emptyIterator, Store.cell?, hs.shared]
      exact ⟨_, s, rfl, hempty⟩
  | scalar kind content mark => exact answers_of_iterator rfl
  | object id =>
      cases hc : s.cells[id]? with
      | none => simp [searchedWays, Store.standsAlone, Store.isSearched, Store.cell?, hc] at h
      | some c =>
          unfold AnswersIterator
          simp only [suitableIterator, Act.bind_apply, Act.reading_apply, Store.cell?, hc]
          cases c with
          | stream walk => exact ⟨_, _, rfl, by simp [Store.isIterator, Store.cell?, hc]⟩
          | iterator it => exact ⟨_, _, rfl, by simp [Store.isIterator, Store.cell?, hc]⟩
          | list | tuple | deque | set | range => exact answers_startWalk hc rfl
          | dict table => exact answers_of_stream rfl
          | bytes kind data =>
              cases kind with
              | constant => simp [searchedWays, Store.standsAlone, Store.cell?, hc] at h
              | changeable => exact answers_startWalk hc rfl
              | view => exact hs.answers_windowOver hc rfl
          | packed kind items => exact hs.answers_windowOver hc rfl
          | grid kind shape elements offset =>
              cases shape with
              | nil =>
                  obtain ⟨x, t, hplain⟩ := plainValue_of_grid (invoke fuel (depth + 1)) fuel hc
                  simp only [hplain, Act.bind_apply]
                  exact answers_of_iterator rfl
              | cons n inner => exact hs.answers_windowOver hc rfl
          -- All other kinds are searched, the objects of scripted classes apart.
          | elements | node | builtin | type | callback =>
              simp [searchedWays, Store.standsAlone, Store.isSearched, Store.cell?, hc,
                Cell.isSearched] at h
          | custom record given => exact absurd hc (hv record given)

end

/-! ## §5. The iterator over a value alone. -/

/-- Asked for all of its elements, an iterator gives these, and then no more. -/
def Yields (w : Value) (xs : List Value) (s : Store) : Prop :=
  ∀ fuel depth extra, ∃ t u,
    drain (invoke fuel (depth + 1)) (extra + xs.length + 1) w s = .value xs t ∧
      drain (invoke fuel (depth + 1)) (extra + 1) w t = .value [] u

section

variable {s : Store} {id : Id} {removable : Value} {here : Single Value}

/-- The store with the state of the single value `id` replaced. -/
def Store.setSingle (s : Store) (id : Id) (removable : Value) (here : Single Value) : Store :=
  s.setCell id (.iterator (.single removable here))

theorem single_after_setSingle {there : Single Value}
    (hc : s.cells[id]? = some (.iterator (.single removable here))) :
    (s.setSingle id removable there).cells[id]? = some (.iterator (.single removable there)) := by
  have hlt : id < s.cells.size := (Array.getElem?_eq_some_iff.mp hc).1
  simp [Store.setSingle, Store.setCell, hlt]

theorem advance_single (fuel depth : Nat)
    (hc : s.cells[id]? = some (.iterator (.single removable here))) :
    invoke fuel (depth + 1) (.advance (.object id)) s =
      if here.fresh && !here.removed then
        .value here.item (s.setSingle id removable { here with fresh := false })
      else .failure .ended s := by
  show advanceValue (invoke fuel depth) fuel (.object id) s = _
  have hget : (singlePart (.object id)).get s = here := by
    simp [singlePart, part, Store.iterator?, Store.cell?, hc]
  have hset : ∀ there, (singlePart (.object id)).set there s =
      s.setSingle id removable there := by
    simp [singlePart, part, Store.iterator?, Store.cell?, hc, Store.setIterator, Store.setSingle]
  simp only [advanceValue, Act.bind_apply, Act.reading_apply, Store.cell?, hc]
  show Single.next (singlePart (.object id)) s = _
  simp only [Single.next, Field.read, Field.write, Act.bind_apply, Act.reading_apply, hget]
  cases here.fresh && !here.removed with
  | true => simp [Act.bind_apply, hset]
  | false => rfl

/-- An iterator is walked by asking it for its elements. -/
theorem drain_iterator {it : Iterator} (fuel depth n : Nat)
    (hc : s.cells[id]? = some (.iterator it)) :
    drain (invoke fuel (depth + 1)) n (.object id) s =
      collectWalk (invoke fuel (depth + 1)) (.object id) pure n [] s := by
  have hwalk : invoke fuel (depth + 1) (.walk (.object id)) s = .value (.object id) s := by
    show startWalk (invoke fuel depth) (.object id) s = _
    simp [startWalk, Act.bind_apply, Store.cell?, hc]
  have hroom : makeRoom (.object id) s = .value () s := by
    simp [makeRoom, Act.bind_apply, Store.length?, Store.cell?, hc]
  simp only [drain, Act.bind_apply, hwalk, hroom]

theorem collectWalk_spent (fuel depth extra : Nat) (made : List Value)
    (hc : s.cells[id]? = some (.iterator (.single removable here)))
    (hspent : (here.fresh && !here.removed) = false) :
    collectWalk (invoke fuel (depth + 1)) (.object id) pure (extra + 1) made s =
      .value made.reverse s := by
  have hadvance := advance_single fuel depth hc
  rw [hspent] at hadvance
  simp [collectWalk, Act.bind_apply, Act.attempt, hadvance, Failure.isEnd]

/-- The iterator over a value alone gives the value, once. -/
theorem yields_single (hc : s.cells[id]? = some (.iterator (.single removable here)))
    (hfresh : (here.fresh && !here.removed) = true) : Yields (.object id) [here.item] s := by
  intro fuel depth extra
  have hadvance := advance_single fuel depth hc
  rw [hfresh] at hadvance
  let spent := s.setSingle id removable { here with fresh := false }
  have hspent : spent.cells[id]? =
      some (.iterator (.single removable { here with fresh := false })) :=
    single_after_setSingle hc
  refine ⟨spent, spent, ?_, ?_⟩
  · rw [drain_iterator fuel depth _ hc]
    show collectWalk _ _ pure (extra + 1 + 1) [] s = _
    rw [collectWalk]
    simp only [Act.bind_apply, Act.attempt, hadvance, if_true]
    exact collectWalk_spent fuel depth extra [here.item] hspent rfl
  · rw [drain_iterator fuel depth _ hspent]
    exact collectWalk_spent fuel depth extra [] hspent rfl

end

/-! ## §6. Totality. -/

/-- The user's code that a conversion calls does not come to an end. -/
inductive Endless (run : Runner) (fuel : Nat) (v : Value) (s : Store) : Prop
  /-- The call that is made without a guard. -/
  | trusted {record : ClassRecord} {given : Nat} {call : Act Store Value}
      (hv : s.cell? v = some (.custom record given))
      (hcall : record.unguarded run v = some call) (h : call s = .unfinished)
  /-- The call on one of the ways, after those before it have led nowhere. -/
  | searched {before after : List Way} {way : Way} {t : Store}
      (hways : searchedWays run fuel v s = some (before ++ way :: after))
      (hbefore : firstOf v before s = .value none t) (hopen : way.isOpen t = true)
      (h : way.call t = .unfinished)

section

variable {run : Runner} {fuel : Nat} {v : Value} {s t : Store} {ways : List Way}

theorem endless_of_searched (hways : searchedWays run fuel v s = some ways)
    (h : suitableIterator run fuel v s = .unfinished) : Endless run fuel v s := by
  rw [suitableIterator_of_searched hways, firstOrSingle, Act.bind_apply] at h
  cases hfirst : firstOf v ways s with
  | value found t =>
      rw [hfirst] at h
      cases found <;> cases h
  | failure e t =>
      rw [hfirst] at h
      cases h
  | unfinished =>
      obtain ⟨before, way, after, t, rfl, hbefore, hopen, hcall⟩ :=
        exists_of_firstOf_unfinished hfirst
      exact .searched hways hbefore hopen hcall

/-- If all ways lead nowhere, the conversion gives the value itself, once. -/
theorem yields_of_searched (hways : searchedWays run fuel v s = some ways)
    (hnone : firstOf v ways s = .value none t) :
    ∃ w u, suitableIterator run fuel v s = .value w u ∧ Yields w [v] u := by
  let here : Single Value := { item := v }
  let new : Store := { t with cells := t.cells.push (.iterator (.single (.bool true) here)) }
  have hconverted : suitableIterator run fuel v s = .value (.object t.cells.size) new := by
    rw [suitableIterator_of_searched hways]
    simp only [firstOrSingle, Act.bind_apply, hnone]
    rfl
  have hcell : new.cells[t.cells.size]? = some (.iterator (.single (.bool true) here)) := by
    simp [new]
  have hyields : Yields (.object t.cells.size) [here.item] new := yields_single hcell rfl
  exact ⟨_, _, hconverted, hyields⟩

theorem suitableIterator_of_custom {record : ClassRecord} {given : Nat}
    (hv : s.cell? v = some (.custom record given)) :
    suitableIterator run fuel v s = objectIterator run fuel record v s := by
  cases v with
  | null | bool | int | float | text | scalar => cases hv
  | object id =>
      simp only [Store.cell?] at hv
      simp only [suitableIterator, Act.bind_apply, Act.reading_apply, Store.cell?, hv]

/-- For the objects of scripted classes to give an iterator is to be reliable. -/
theorem after_of_custom_iff {record : ClassRecord} {given : Nat}
    (hv : s.cell? v = some (.custom record given)) :
    (suitableIterator run fuel v).After s GivesIterator ↔
      ∀ other number, s.cell? v = some (.custom other number) → other.Reliable run v s := by
  have hconverted : (suitableIterator run fuel v).After s GivesIterator ↔
      (objectIterator run fuel record v).After s GivesIterator :=
    ⟨fun h => h.of_eq (suitableIterator_of_custom hv).symm,
      fun h => h.of_eq (suitableIterator_of_custom hv)⟩
  rw [hconverted, after_objectIterator_iff hv]
  refine ⟨fun h other number hother => ?_, fun h => h record given hv⟩
  obtain ⟨rfl, -⟩ := Cell.custom.inj (Option.some.inj (hv.symm.trans hother))
  exact h

theorem searchedWays_of_custom {record : ClassRecord} {given : Nat}
    (hv : s.cell? v = some (.custom record given)) (hopen : record.isSearched = true) :
    searchedWays run fuel v s = some (lookupWays run fuel v) := by
  cases v with
  | null | bool | int | float | text | scalar => cases hv
  | object id =>
      simp [searchedWays, Store.standsAlone, Store.isSearched, Cell.isSearched, hv, hopen]

theorem endless_of_custom {record : ClassRecord} {given : Nat}
    (hv : s.cell? v = some (.custom record given))
    (h : suitableIterator run fuel v s = .unfinished) : Endless run fuel v s := by
  have hobject := (suitableIterator_of_custom hv).symm.trans h
  have hroute := objectIterator_route run fuel record v
  generalize objectIterator run fuel record v = x at hroute hobject
  cases hroute with
  | trusted hclass hcall => exact .trusted hv hcall hobject
  | entries | itself | refused => cases hobject
  | searched hclass hcall hopen =>
      exact endless_of_searched (searchedWays_of_custom hv hopen) h

end

/-- **Conversion is total for reliable objects and for all other values.**  It gives an iterator,
unless the user's code asks to leave the program, exactly if the value, where it is an object of
a scripted class, is reliable; it comes to an end unless the user's code that it calls does not;
and where every lookup leads nowhere the iterator gives the value itself and nothing else. -/
theorem suitableIterator_total (fuel depth : Nat) (v : Value) (s : Store) (hs : s.Sound) :
    ((suitableIterator (invoke fuel (depth + 1)) fuel v).After s GivesIterator ↔
      ∀ record given, s.cell? v = some (.custom record given) →
        record.Reliable (invoke fuel (depth + 1)) v s) ∧
    (suitableIterator (invoke fuel (depth + 1)) fuel v s = .unfinished →
      Endless (invoke fuel (depth + 1)) fuel v s) ∧
    (∀ ways t, searchedWays (invoke fuel (depth + 1)) fuel v s = some ways →
      firstOf v ways s = .value none t →
      ∃ w u, suitableIterator (invoke fuel (depth + 1)) fuel v s = .value w u ∧
        Yields w [v] u) := by
  by_cases hv : ∃ record given, s.cell? v = some (.custom record given)
  · obtain ⟨record, given, hv⟩ := hv
    exact ⟨after_of_custom_iff hv, endless_of_custom hv, fun ways t => yields_of_searched⟩
  · have hplain : ∀ record given, s.cell? v ≠ some (.custom record given) :=
      fun record given h => hv ⟨record, given, h⟩
    cases hways : searchedWays (invoke fuel (depth + 1)) fuel v s with
    | some ways =>
        exact ⟨⟨fun _ record given h => absurd h (hplain record given),
            fun _ => after_suitableIterator_of_searched hways⟩,
          endless_of_searched hways, fun others t h => yields_of_searched (hways.trans h)⟩
    | none =>
        have hanswers := answers_of_settled depth hs hplain hways
        refine ⟨⟨fun _ record given h => absurd h (hplain record given),
          fun _ => hanswers.after⟩, fun h => ?_, fun others t h => ?_⟩
        · obtain ⟨w, t, hx, -⟩ := hanswers
          cases hx.symm.trans h
        · cases h

/-! ## §7. Two broken classes. -/

/-- A store with one object of a scripted class. -/
def Store.ofObject (spec : ClassSpec Expr) : Store where
  cells := #[.iterator .empty, .custom ⟨spec, none⟩ 0]

theorem Store.sound_ofObject (spec : ClassSpec Expr) : (Store.ofObject spec).Sound where
  shared := rfl
  sizes id c n hc harray _ := by
    match id, hc with
    | 0, hc =>
        cases hc
        cases harray
    | 1, hc =>
        cases hc
        cases harray

/-- Objects with subscripts whose keys cannot be asked for. -/
def brokenTable : ClassSpec Expr where
  name := "BrokenTable"
  members := [(.keys, .fails (.raised "RuntimeError" (some "broken keys")))]
  lookup := some (.byKey [])

/-- Collections that cannot be walked. -/
def brokenShelf : ClassSpec Expr where
  name := "Broken"
  members := [(.iter, .fails (.raised "RuntimeError" (some "broken")))]
  length := some 1
  contains := true

/-- The failure of the keys is passed over: the table is given as its own only element. -/
theorem brokenTable_yields_itself :
    (Store.ofObject brokenTable).Sound ∧
      ∃ w u, suitableIterator (invoke 1 1) 1 (.object 1) (Store.ofObject brokenTable) =
        .value w u ∧ Yields w [.object 1] u :=
  ⟨Store.sound_ofObject brokenTable,
    (suitableIterator_total 1 0 (.object 1) _ (Store.sound_ofObject brokenTable)).2.2 _ _ rfl rfl⟩

/-- The failure of the walk is not: it is the failure of the conversion. -/
theorem brokenShelf_not_converted :
    (Store.ofObject brokenShelf).Sound ∧
      ¬ (suitableIterator (invoke 1 1) 1 (.object 1)).After (Store.ofObject brokenShelf)
        GivesIterator :=
  ⟨Store.sound_ofObject brokenShelf, fun h => by cases h⟩

end Cursors.Workspace
