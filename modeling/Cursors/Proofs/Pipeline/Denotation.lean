/-
  Cursors.Proofs.Pipeline.Denotation
  ──────────────────────────────────
  **A PIPELINE GIVES ITS DENOTATION.**

  A pipeline is a tree of combinators over plain lists.  Its denotation is a
  list, by recursion on the tree; as a source, it is the combinators at
  their stations of a net.  By induction on the tree, each part gives its
  denotation from a new net on, whatever was asked of it meanwhile
  (`exists_serves`), hence a run of calls on the root is answered by the
  script of the denotation (`pipeline_denotes`).
-/
import Mathlib.Data.Fin.VecNotation
import Mathlib.Data.List.OfFn
import Cursors.Primitive.ReadOnly
import Cursors.Proofs.Guard
import Cursors.Proofs.Pipeline.Links
import Cursors.Proofs.Pipeline.Net

namespace Cursors

variable {σ α : Type}

/-! ## §1. Pipelines. -/

/-- A tree of combinators over plain lists. -/
inductive Pipeline (α : Type) where
  | list (xs : List α)
  | window (xs : List α) (start stop : Nat)
      (inside : Window.checkBounds xs.length start stop = .ok ())
  | cursor (xs : List α) (start : Nat) (inside : start ≤ xs.length)
  | filter (p : α → Bool) (below : Pipeline α)
  | transform (f : α → α) (below : Pipeline α)
  | chain (n : Nat) (members : Fin n → Pipeline α)
  | merge (lt : α → α → Bool) (n : Nat) (children : Fin (n + 2) → Pipeline α)
  | buffer (strict : Bool) (below : Pipeline α)
  | readOnly (below : Pipeline α)

namespace Pipeline

/-- The list that a pipeline stands for. -/
def denote : Pipeline α → List α
  | list xs => xs
  | window xs start stop _ => (xs.take stop).drop start
  | cursor xs start _ => xs.drop start
  | filter p below => below.denote.filter p
  | transform f below => below.denote.map f
  | chain _ members => (List.ofFn fun i => (members i).denote).flatten
  | merge lt _ children => Merge.collate lt (List.ofFn fun i => (children i).denote)
  | buffer _ below => below.denote
  | readOnly below => below.denote

/-- All that is in the lists of a pipeline. -/
def items : Pipeline α → List α
  | list xs => xs
  | window xs _ _ _ => xs
  | cursor xs _ _ => xs
  | filter _ below => below.items
  | transform _ below => below.items
  | chain _ members => (List.ofFn fun i => (members i).items).flatten
  | merge _ _ children => (List.ofFn fun i => (children i).items).flatten
  | buffer _ below => below.items
  | readOnly below => below.items

/-- The number of elements in the lists of a pipeline. -/
def size (p : Pipeline α) : Nat := p.items.length

/-! ### Building. -/

/-- What a chain takes over when it is given a part: the members of a chain that was not used
yet, and else the part itself. -/
def parts : Pipeline α → List (Pipeline α)
  | chain _ members => List.ofFn members
  | p => [p]

/-- The chain of some parts. -/
def ofParts (ps : List (Pipeline α)) : Pipeline α := chain ps.length ps.get

/-- The pipeline as it is built, the innermost combinators first. -/
def built : Pipeline α → Pipeline α
  | list xs => list xs
  | window xs start stop inside => window xs start stop inside
  | cursor xs start inside => cursor xs start inside
  | filter p below => filter p below.built
  | transform f below => transform f below.built
  | chain _ members => ofParts ((List.ofFn fun i => (members i).built).flatMap parts)
  | merge lt n children => merge lt n fun i => (children i).built
  | buffer strict below => buffer strict below.built
  | readOnly below => readOnly below.built

/-- A part at a path, as a source.  A combinator without state of its own has no station. -/
def source [Inhabited α] (guard : Guard (Net α) α) (fuel : Nat) :
    Pipeline α → Path → Forward (Net α) α
  | list xs, a =>
      Peek.forward "IteratorWrapper" (Slot.peek.field a)
        (Feed.pull (Feed.ofList xs) (Slot.taken.field a))
  | window _ _ _ _, a =>
      Window.forward "ArrayIterator" (Slot.window.field a) (.ofList (Slot.items.field a))
  | cursor _ _ _, a =>
      (Cursor.twoWay (Slot.cursor.field a) (.ofList (Slot.items.field a))).toForward
  | filter p below, a =>
      Filter.forward fuel (Slot.filter.field a) (below.source guard fuel (a ++ [0]))
        (guard.call fun x => pure (p x))
  | transform f below, a => (below.source guard fuel a).transform (guard.call fun x => pure (f x))
  | chain n members, a =>
      Chain.forward (Slot.chain.field a)
        (Net.fan n fun i => (members i).source guard fuel (a ++ [i.val])) fun _ => pure ()
  | merge lt n children, a =>
      Merge.forward (Slot.merge.field a)
        ((List.range (n + 2)).map
          (Net.fan (n + 2) fun i => (children i).source guard fuel (a ++ [i.val])))
        (Merge.weigh lt)
  | buffer strict below, a =>
      (Buffer.twoWay (pure strict) (Slot.buffer.field a)
        (below.source guard fuel (a ++ [0]))).toForward
  | readOnly below, a => (below.source guard fuel a).readOnly "UnmodifiableIterator"

/-- The net in which a pipeline is new. -/
def net : Pipeline α → Net α
  | list _ => Net.plant {} fun _ => .blank
  | window xs start stop _ =>
      Net.plant { items := xs, window := .fresh (.plain start) (.plain stop) } fun _ => .blank
  | cursor xs start _ =>
      Net.plant { items := xs, cursor := { position := .plain start } } fun _ => .blank
  | filter _ below => Net.plant {} fun _ => below.net
  | transform _ below => below.net
  | chain n members =>
      Net.plant { chain := { members := List.range n } }
        (padded (fun i => (members i).net) .blank)
  | merge _ n children =>
      Net.plant { merge := .start (n + 2) } (padded (fun i => (children i).net) .blank)
  | buffer _ below => Net.plant {} fun _ => below.net
  | readOnly below => below.net

/-! ## §2. Building. -/

section

variable {f : Pipeline α → List α}

/-- Where `f` goes through a chain member by member, it goes through what is taken over from a
part as through the part. -/
theorem flatten_map_parts
    (hf : ∀ n (members : Fin n → Pipeline α),
      f (chain n members) = (List.ofFn fun i => f (members i)).flatten)
    (p : Pipeline α) : (p.parts.map f).flatten = f p := by
  cases p with
  | chain n members =>
      rw [parts, hf, List.map_ofFn]
      rfl
  | _ => exact List.append_nil _

/-- To take over the members of chains makes no difference to such a function. -/
theorem flatten_built_chain
    (hf : ∀ n (members : Fin n → Pipeline α),
      f (chain n members) = (List.ofFn fun i => f (members i)).flatten)
    (n : Nat) (members : Fin n → Pipeline α) :
    f (chain n members).built = (List.ofFn fun i => f (members i).built).flatten := by
  have hparts : ∀ ps : List (Pipeline α), f (ofParts ps) = (ps.map f).flatten := by
    intro ps
    rw [ofParts, hf]
    exact congrArg List.flatten (List.ofFn_getElem_eq_map ps f)
  have hflat : ∀ ps : List (Pipeline α),
      ((ps.flatMap parts).map f).flatten = (ps.map f).flatten := by
    intro ps
    induction ps with
    | nil => rfl
    | cons p ps ih =>
        rw [List.flatMap_cons, List.map_append, List.flatten_append, flatten_map_parts hf, ih,
          List.map_cons, List.flatten_cons]
  rw [built, hparts, hflat, List.map_ofFn]
  rfl

end

theorem denote_built (p : Pipeline α) : p.built.denote = p.denote := by
  induction p with
  | list | window | cursor => rfl
  | filter p below ih | transform f below ih | buffer strict below ih | readOnly below ih =>
      simp only [built, denote, ih]
  | chain n members ih =>
      rw [flatten_built_chain (f := denote) (fun _ _ => rfl), funext ih, denote]
  | merge lt n children ih => simp only [built, denote, ih]

theorem items_built (p : Pipeline α) : p.built.items = p.items := by
  induction p with
  | list | window | cursor => rfl
  | filter p below ih | transform f below ih | buffer strict below ih | readOnly below ih =>
      simp only [built, items, ih]
  | chain n members ih =>
      rw [flatten_built_chain (f := items) (fun _ _ => rfl), funext ih, items]
  | merge lt n children ih => simp only [built, items, ih]

theorem size_built (p : Pipeline α) : p.built.size = p.size :=
  congrArg List.length p.items_built

/-! ## §3. Each part gives its denotation. -/

theorem length_flatten_ofFn_le {n : Nat} {f g : Fin n → List α}
    (h : ∀ i, (f i).length ≤ (g i).length) :
    (List.ofFn f).flatten.length ≤ (List.ofFn g).flatten.length := by
  induction n with
  | zero => exact Nat.le_refl 0
  | succ n ih =>
      rw [List.ofFn_succ, List.ofFn_succ, List.flatten_cons, List.flatten_cons,
        List.length_append, List.length_append]
      exact Nat.add_le_add (h 0) (ih fun i => h i.succ)

theorem length_le_flatten_ofFn {n : Nat} (f : Fin n → List α) (i : Fin n) :
    (f i).length ≤ (List.ofFn f).flatten.length :=
  (List.sublist_flatten_of_mem (List.mem_ofFn.mpr ⟨i, rfl⟩)).length_le

/-- A pipeline gives no more elements than there are in its lists. -/
theorem length_denote_le (p : Pipeline α) : p.denote.length ≤ p.size := by
  induction p with
  | list xs => exact Nat.le_refl _
  | window xs start stop _ =>
      rw [denote, List.length_drop, List.length_take, size, items]
      omega
  | cursor xs start _ =>
      rw [denote, List.length_drop, size, items]
      omega
  | filter p below ih => exact Nat.le_trans (List.length_filter_le p _) ih
  | transform f below ih =>
      rw [denote, List.length_map]
      exact ih
  | chain n members ih => exact length_flatten_ofFn_le ih
  | merge lt n children ih =>
      exact Nat.le_trans (Merge.length_collate_le lt _) (length_flatten_ofFn_le ih)
  | buffer strict below ih | readOnly below ih => exact ih

/-! ### Parts in their places. -/

section

variable (a : Path)

theorem serves_list (xs : List α) :
    Net.Serves a
      (Peek.forward "IteratorWrapper" (Slot.peek.field a)
        (Feed.pull (Feed.ofList xs) (Slot.taken.field a)))
      fun s rest => (s a).peek.Awaits xs (s a).taken rest :=
  Net.serves_of_pair Slot.peek Slot.taken Slot.peek_apart (fun p n rest => p.Awaits xs n rest)
    fun s₀ => Pair.gives_peek
      (Pair.feeds_pull (Net.pair a Slot.peek Slot.taken Slot.peek_apart s₀) xs) "IteratorWrapper"

theorem serves_window :
    Net.Serves a
      (Window.forward "ArrayIterator" (Slot.window.field a) (.ofList (Slot.items.field a)))
      fun s rest => (s a).window.Rest (s a).items (rest : List α) :=
  Net.serves_of_pair Slot.window Slot.items Slot.window_apart Window.Rest fun s₀ =>
    Pair.gives_window (Net.pair a Slot.window Slot.items Slot.window_apart s₀) "ArrayIterator"

theorem serves_cursor :
    Net.Serves a (Cursor.twoWay (Slot.cursor.field a) (.ofList (Slot.items.field a))).toForward
      fun s rest => (s a).cursor.Rest (s a).items (rest : List α) :=
  Net.serves_of_pair Slot.cursor Slot.items Slot.cursor_apart Cursor.Rest fun s₀ =>
    Pair.gives_cursor (Net.pair a Slot.cursor Slot.items Slot.cursor_apart s₀)

variable {a} {source : Forward (Net α) α} {Has : Net α → List α → Prop}

theorem serves_filter (h : Net.Serves (a ++ [0]) source Has) (fuel : Nat)
    (guard : Guard (Net α) α) (p : α → Bool) :
    Net.Serves a
      (Filter.forward fuel (Slot.filter.field a) source (guard.call fun x => pure (p x)))
      fun s ys => ∃ xs, Has s xs ∧ Filter.Rest fuel p (s a).filter xs ys := by
  have haccepts : ∀ x s, guard.call (fun x => pure (p x)) x s = .value (p x) s :=
    fun x s => Guard.call_of_value rfl
  exact Net.serves_of_host Slot.filter h (Filter.Rest fuel p) fun s₀ =>
    Filter.gives (Net.host a Slot.filter h s₀) fuel haccepts

theorem serves_buffer (h : Net.Serves (a ++ [0]) source Has) (strict : Bool) :
    Net.Serves a (Buffer.twoWay (pure strict) (Slot.buffer.field a) source).toForward
      fun s ys => ∃ xs, Has s xs ∧ (s a).buffer.Rest xs ys :=
  Net.serves_of_host Slot.buffer h Buffer.Rest fun s₀ =>
    Buffer.gives (Net.host a Slot.buffer h s₀) (pure strict)

theorem serves_transform (h : Net.Serves a source Has) (guard : Guard (Net α) α) (f : α → α) :
    Net.Serves a (source.transform (guard.call fun x => pure (f x)))
      fun s ys => ∃ xs, Has s xs ∧ xs.map f = ys where
  gives s₀ := by
    have hgives := (h.gives s₀).transform (f := guard.call fun x => pure (f x)) (g := f)
      fun x s => Guard.call_of_value rfl
    refine hgives.congr fun s ys => ⟨?_, ?_⟩
    · rintro ⟨⟨xs, hxs, hys⟩, hout⟩
      exact ⟨xs, ⟨hxs, hout⟩, hys⟩
    · rintro ⟨xs, ⟨hxs, hout⟩, hys⟩
      exact ⟨⟨xs, hxs, hys⟩, hout⟩
  of_inside := by
    rintro s s' ys ⟨xs, hxs, hys⟩ hin
    exact ⟨xs, h.of_inside hxs hin, hys⟩

theorem serves_readOnly (h : Net.Serves a source Has) :
    Net.Serves a (source.readOnly "UnmodifiableIterator") Has where
  gives s₀ := (h.gives s₀).of_eq rfl rfl
  of_inside := h.of_inside

variable {n : Nat} {sources : Fin n → Forward (Net α) α} {Hases : Fin n → Net α → List α → Prop}

theorem serves_chain (h : ∀ i, Net.Serves (a ++ [i.val]) (sources i) (Hases i)) :
    Net.Serves a (Chain.forward (Slot.chain.field a) (Net.fan n sources) fun _ => pure ())
      fun s ys => ∃ left, Net.Left n Hases s left ∧ (s a).chain.Rest left ys :=
  Net.serves_of_group Slot.chain h Chain.Rest fun s₀ =>
    Chain.gives (Net.group a Slot.chain h s₀) fun _ _ => rfl

theorem serves_merge [Inhabited α] (h : ∀ i, Net.Serves (a ++ [i.val]) (sources i) (Hases i))
    (lt : α → α → Bool) :
    Net.Serves a
      (Merge.forward (Slot.merge.field a) ((List.range n).map (Net.fan n sources))
        (Merge.weigh lt))
      fun s ys => ∃ left, Net.Left n Hases s left ∧ Merge.Rest n lt (s a).merge left ys :=
  Net.serves_of_group Slot.merge h (Merge.Rest n lt) fun s₀ =>
    Merge.gives (Net.group a Slot.merge h s₀) n lt

end

/-- Where the nets of the children are new, they have their denotations left. -/
theorem left_denote {n : Nat} {members : Fin n → Pipeline α}
    {Hases : Fin n → Net α → List α → Prop} {a : Path}
    (hstart : ∀ i (s : Net α), s.below (a ++ [i.val]) = (members i).net →
      Hases i s (members i).denote)
    {s : Net α} {u : Station α}
    (hs : s.below a = Net.plant u (padded (fun i => (members i).net) .blank)) :
    Net.Left n Hases s (padded (fun i => (members i).denote) []) := by
  intro i
  by_cases hi : i < n
  · rw [dif_pos hi, padded_of_lt hi]
    refine hstart ⟨i, hi⟩ s ?_
    rw [Net.below_of_below hs, padded_of_lt hi]
  · rw [dif_neg hi, padded_of_not_lt hi]

variable [Inhabited α] {fuel : Nat}

/-- Each part gives its denotation from a new net on, whatever is asked of it meanwhile. -/
theorem exists_serves (guard : Guard (Net α) α) (p : Pipeline α) (hfuel : p.size < fuel)
    (a : Path) :
    ∃ Has, Net.Serves a (p.source guard fuel a) Has
      ∧ ∀ s : Net α, s.below a = p.net → Has s p.denote := by
  -- Of its children, a part is told no more than what they have left in the states that it has
  -- brought them to, hence the induction is on the tree, for every address.
  induction p generalizing a with
  | list xs =>
      refine ⟨_, serves_list a xs, fun s hs => ?_⟩
      rw [Net.station_of_below hs]
      exact Peek.awaits_fresh xs
  | window xs start stop inside =>
      refine ⟨_, serves_window a, fun s hs => ?_⟩
      rw [Net.station_of_below hs]
      exact Window.rest_fresh inside
  | cursor xs start inside =>
      refine ⟨_, serves_cursor a, fun s hs => ?_⟩
      rw [Net.station_of_below hs]
      exact Cursor.rest_ofList inside
  | filter p below ih =>
      obtain ⟨Has, hserves, hstart⟩ := ih hfuel (a ++ [0])
      refine ⟨_, serves_filter hserves fuel guard p, fun s hs => ?_⟩
      -- A search takes at most what the part below has to give.
      refine ⟨below.denote, hstart s (Net.below_of_below hs 0), ?_⟩
      rw [Net.station_of_below hs]
      exact ⟨Nat.lt_of_le_of_lt below.length_denote_le hfuel, rfl⟩
  | transform f below ih =>
      obtain ⟨Has, hserves, hstart⟩ := ih hfuel a
      exact ⟨_, serves_transform hserves guard f, fun s hs => ⟨_, hstart s hs, rfl⟩⟩
  | chain n members ih =>
      have hsize : ∀ i, (members i).size < fuel :=
        fun i => Nat.lt_of_le_of_lt (length_le_flatten_ofFn (fun i => (members i).items) i) hfuel
      choose Has hserves hstart using fun i => ih i (hsize i) (a ++ [i.val])
      refine ⟨_, serves_chain hserves, fun s hs => ⟨_, left_denote hstart hs, ?_⟩⟩
      rw [Net.station_of_below hs]
      refine ⟨List.nodup_range, .new rfl rfl, ?_⟩
      rw [List.flatMap_def, map_range_padded, denote]
  | merge lt n children ih =>
      have hsize : ∀ i, (children i).size < fuel :=
        fun i => Nat.lt_of_le_of_lt (length_le_flatten_ofFn (fun i => (children i).items) i) hfuel
      choose Has hserves hstart using fun i => ih i (hsize i) (a ++ [i.val])
      refine ⟨_, serves_merge hserves lt, fun s hs => ⟨_, left_denote hstart hs, ?_⟩⟩
      rw [Net.station_of_below hs]
      refine ⟨List.length_replicate, ?_⟩
      simp only [Merge.slot_start, Option.toList_none, List.nil_append]
      rw [map_range_padded, denote]
  | buffer strict below ih =>
      obtain ⟨Has, hserves, hstart⟩ := ih hfuel (a ++ [0])
      refine ⟨_, serves_buffer hserves strict, fun s hs => ?_⟩
      refine ⟨below.denote, hstart s (Net.below_of_below hs 0), ?_⟩
      rw [Net.station_of_below hs]
      exact ⟨_, Buffer.spans_fresh _, rfl⟩
  | readOnly below ih =>
      obtain ⟨Has, hserves, hstart⟩ := ih hfuel a
      exact ⟨_, serves_readOnly hserves, hstart⟩

end Pipeline

/-! ## §4. Every run. -/

/-- Make a call of a source. -/
def Merge.Draw.ask (source : Forward σ α) : Draw → Act σ (Answer α)
  | .hasNext => do return .truth (← source.hasNext)
  | .next => do return .element (← source.next)

/-- The answers to calls that are made one after the other, and the failures among them; none if
one of them is not finished. -/
def Forward.answers (source : Forward σ α) :
    List Merge.Draw → σ → Option (List (Except Failure (Answer α)))
  | [], _ => some []
  | call :: calls, s =>
      match call.ask source s with
      | .value answer s' => (answers source calls s').map (.ok answer :: ·)
      | .failure e s' => (answers source calls s').map (.error e :: ·)
      | .unfinished => none

/-- The answers to calls where `k` of the elements `ys` have been returned. -/
def script (ys : List α) : Nat → List Merge.Draw → List (Except Failure (Answer α))
  | _, [] => []
  | k, .hasNext :: calls => .ok (.truth (decide (k < ys.length))) :: script ys k calls
  | k, .next :: calls =>
      match ys[k]? with
      | some y => .ok (.element y) :: script ys (k + 1) calls
      | none => .error .ended :: script ys k calls

/-- An answer that is not the answer to a question. -/
def isStep : Except Failure (Answer α) → Bool
  | .ok (.truth _) => false
  | _ => true

section

variable {source : Forward σ α} {Has : σ → List α → Prop} {s s' : σ} {calls : List Merge.Draw}

theorem answers_of_value {call : Merge.Draw} {answer : Answer α}
    (h : call.ask source s = .value answer s') :
    source.answers (call :: calls) s = (source.answers calls s').map (.ok answer :: ·) := by
  simp only [Forward.answers, h]

theorem answers_of_failure {call : Merge.Draw} {e : Failure}
    (h : call.ask source s = .failure e s') :
    source.answers (call :: calls) s = (source.answers calls s').map (.error e :: ·) := by
  simp only [Forward.answers, h]

/-- A source that gives a list follows its script. -/
theorem answers_of_gives (h : Gives source Has) (ys : List α) (calls : List Merge.Draw) {k : Nat}
    (hs : Has s (ys.drop k)) : source.answers calls s = some (script ys k calls) := by
  -- The induction is on the calls; each leaves what `k` elements fewer leave of the list.
  induction calls generalizing s k with
  | nil => rfl
  | cons call calls ih =>
      cases call with
      | hasNext =>
          obtain ⟨s', hask, h'⟩ := h.hasNext_apply hs
          have hmore : (!(ys.drop k).isEmpty) = decide (k < ys.length) := by
            rw [Bool.eq_iff_iff, Bool.not_eq_true', List.isEmpty_eq_false_iff, ne_eq,
              List.drop_eq_nil_iff, Nat.not_le, decide_eq_true_iff]
          rw [hmore] at hask
          have hcall : Merge.Draw.hasNext.ask source s
              = .value (.truth (decide (k < ys.length))) s' :=
            Act.map_of (r := .ok _) Answer.truth hask
          rw [answers_of_value hcall, ih h', Option.map_some, script]
      | next =>
          cases hk : ys[k]? with
          | some y =>
              obtain ⟨hlt, rfl⟩ := List.getElem?_eq_some_iff.mp hk
              rw [List.drop_eq_getElem_cons hlt] at hs
              obtain ⟨s', hnext, h'⟩ := h.next_of_cons hs
              have hcall : Merge.Draw.next.ask source s = .value (.element ys[k]) s' :=
                Act.map_of (r := .ok _) Answer.element hnext
              rw [answers_of_value hcall, ih h', Option.map_some, script, hk]
          | none =>
              have hnil : ys.drop k = [] :=
                List.drop_eq_nil_iff.mpr (List.getElem?_eq_none_iff.mp hk)
              rw [hnil] at hs
              obtain ⟨s', hnext, h'⟩ := h.next_of_nil hs
              rw [← hnil] at h'
              have hcall : Merge.Draw.next.ask source s = .failure .ended s' :=
                Act.map_of (r := .error _) Answer.element hnext
              rw [answers_of_failure hcall, ih h', Option.map_some, script, hk]

/-- Of a script, the steps depend on nothing but their number. -/
theorem filter_isStep_script (ys : List α) (k : Nat) (calls : List Merge.Draw) :
    (script ys k calls).filter isStep = script ys k (List.replicate (calls.count .next) .next) := by
  induction calls generalizing k with
  | nil => rfl
  | cons call calls ih =>
      cases call with
      | hasNext =>
          rw [script, List.filter_cons_of_neg Bool.false_ne_true, ih,
            List.count_cons_of_ne (by decide)]
      | next =>
          rw [List.count_cons_self, List.replicate_succ, script, script]
          cases ys[k]? with
          | some y => exact congrArg _ (ih (k + 1))
          | none => exact congrArg _ (ih k)

end

namespace Pipeline

variable [Inhabited α] {fuel : Nat}

/-- A new pipeline gives its denotation, element by element, and then it ends; it tells whether
there is more, and its steps do not depend on how often it is asked this. -/
theorem pipeline_denotes (guard : Guard (Net α) α) (p : Pipeline α) (hfuel : p.size < fuel)
    (calls : List Merge.Draw) :
    (p.built.source guard fuel []).answers calls p.built.net = some (script p.denote 0 calls)
      ∧ ∀ calls' : List Merge.Draw, calls'.count .next = calls.count .next →
        ((p.built.source guard fuel []).answers calls' p.built.net).map (List.filter isStep)
          = ((p.built.source guard fuel []).answers calls p.built.net).map
            (List.filter isStep) := by
  have hanswers : ∀ calls, (p.built.source guard fuel []).answers calls p.built.net
      = some (script p.denote 0 calls) := by
    intro calls
    obtain ⟨Has, hserves, hstart⟩ := exists_serves guard p.built (by rwa [size_built]) []
    -- Below the root is the whole net.
    have hs := hstart p.built.net rfl
    rw [denote_built] at hs
    exact answers_of_gives (hserves.gives p.built.net) p.denote calls ⟨hs, Net.outside_refl [] _⟩
  refine ⟨hanswers calls, fun calls' hcount => ?_⟩
  rw [hanswers, hanswers, Option.map_some, Option.map_some, filter_isStep_script,
    filter_isStep_script, hcount]

/-- The even ones of two windows in a row, merged with a list. -/
def sample : Pipeline Nat :=
  .buffer false (.merge (fun x y => decide (x < y)) 0 ![
    .filter (fun x => decide (x % 2 = 0)) (.chain 2 ![
      .chain 1 ![.window [1, 2, 3, 4] 1 4 rfl],
      .readOnly (.cursor [5, 6] 1 (by decide))]),
    .transform (· + 1) (.list [1, 4])])

theorem pipeline_denotes_sample :
    sample.size < 9
      ∧ (sample.built.source (.steady .wrap fun _ => .ok "") 9 []).answers
        [.next, .hasNext, .next, .next, .next, .next, .hasNext, .next] sample.built.net
          = some (script [2, 2, 4, 5, 6] 0
            [.next, .hasNext, .next, .next, .next, .next, .hasNext, .next]) := by
  have hsize : sample.size < 9 := by decide
  exact ⟨hsize, (pipeline_denotes (.steady .wrap fun _ => .ok "") sample hsize _).1⟩

end Pipeline

end Cursors
