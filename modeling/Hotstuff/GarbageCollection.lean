import Hotstuff.TransitionSystem
import Mathlib.Data.List.Perm.Basic
import Mathlib.Logic.Function.Basic

/-!
# The garbage collector of block bodies

`BlockGarbageCollector` runs in a thread of its own.  Inserted blocks are put
into a buffer, and a commit leaves a height in a slot that a later commit may
overwrite.  The thread waits for a height, moves the buffer to its own list and
runs through the list, flushing what lies below the height.  Buffer and slot are
guarded by a mutex; the list belongs to the thread, so a pass through it is
interleaved with everything the other threads do.

The file is about the collector alone.  Block objects are values of any type,
and whoever uses the collector may insert them at any heights.
-/

namespace Hotstuff

/-! ### Removing an entry by means of the last one -/

section SwapRemove

variable {Entry : Type*}

/-- `*iter = list.back(); list.pop_back();` where `entry` is at the index. -/
def swapRemove (entries : List Entry) (index : Nat) (entry : Entry) :
    List Entry :=
  (entries.set index (entries.getLastD entry)).dropLast

variable {entries : List Entry} {index : Nat} {entry : Entry}

theorem length_swapRemove :
    (swapRemove entries index entry).length = entries.length - 1 := by
  simp [swapRemove]

/-- Only the entry at the index is lost. -/
theorem perm_swapRemove (found : entries[index]? = some entry) :
    entries.Perm (entry :: swapRemove entries index entry) := by
  rcases List.eq_nil_or_concat entries with rfl | ⟨front, last, rfl⟩
  · cases found
  rw [List.concat_eq_append] at found ⊢
  unfold swapRemove
  rw [List.getLastD_concat]
  by_cases inFront : index < front.length
  · -- The last entry takes the place of the removed one.
    rw [List.getElem?_append_left inFront,
      List.getElem?_eq_getElem inFront] at found
    obtain rfl : front[index] = entry := Option.some.inj found
    rw [List.set_append_left _ _ inFront, List.dropLast_concat,
      List.set_eq_take_append_cons_drop, if_pos inFront]
    have split : front = front.take index ++ front.drop index :=
      (List.take_append_drop index front).symm
    rw [← List.getElem_cons_drop inFront] at split
    calc front ++ [last]
      _ = front.take index ++
          front[index] :: (front.drop (index + 1) ++ [last]) := by
        rw [← List.cons_append, ← List.append_assoc, ← split]
      List.Perm _ (front[index] ::
          (front.take index ++ (front.drop (index + 1) ++ [last]))) :=
        List.perm_middle
      List.Perm _ (front[index] ::
          (front.take index ++ last :: front.drop (index + 1))) := by
        apply List.Perm.cons
        apply List.Perm.append_left
        exact List.perm_append_singleton last _
  · obtain ⟨bound, entryEq⟩ := List.getElem?_eq_some_iff.mp found
    have lastIndex : index = front.length := by
      simp only [List.length_append, List.length_singleton] at bound
      omega
    subst lastIndex
    obtain rfl : last = entry := by simpa using entryEq
    simp only [List.set_append_right _ _ (Nat.le_refl _), Nat.sub_self,
      List.set_cons_zero, List.dropLast_concat]
    exact List.perm_append_singleton last front

/-- The entries before the index stay. -/
theorem take_swapRemove (bound : index < entries.length) :
    (swapRemove entries index entry).take index = entries.take index := by
  unfold swapRemove
  rw [List.dropLast_eq_take, List.take_take, List.length_set,
    Nat.min_eq_left (by omega), List.take_set_of_le (Nat.le_refl _)]

end SwapRemove

/-! ### The collector and the threads that use it -/

/-- The loop of `do_gc` in progress: the height it was given and the index of
its iterator. -/
structure GcPass where
  hotstuffHeight : Nat
  iter : Nat
  deriving DecidableEq

/-- The fields of the collector, the pass in progress, the block objects as far
as the collector uses them, and the height that was committed last. -/
structure GarbageCollection (Object : Type*) where
  hotstuffHeightToGc : Option Nat
  gcList : List Object
  gcListBuffer : List Object
  pass : Option GcPass
  inserted : Object → Bool
  height : Object → Nat
  flushed : Object → Bool
  committed : Nat

/-- The argument of `prune_below_height` in `notify_ok_to_prune_blocks`. -/
def pruneHeight (committedHeight : Nat) : Nat :=
  let keepDepth := 100
  if keepDepth < committedHeight then committedHeight - keepDepth else 0

namespace GarbageCollection

variable {Object : Type*}

/-- Nothing is inserted yet; a replica that reloads starts with a committed
height. -/
def start (committed : Nat) : GarbageCollection Object where
  hotstuffHeightToGc := none
  gcList := []
  gcListBuffer := []
  pass := none
  inserted := fun _ => false
  height := fun _ => 0
  flushed := fun _ => false
  committed := committed

inductive Action (Object : Type*)
  /-- the block gets its height and is handed to `add_block` -/
  | insert (object : Object) (height : Nat)
  /-- `notify_ok_to_prune_blocks`, which ends in `invoke_gc` -/
  | commit (height : Nat)
  /-- the thread leaves its critical section with a height -/
  | startPass
  /-- one round of the loop in `do_gc` -/
  | stepPass

/-- Every object is inserted once, and committed heights do not decrease. -/
def Enabled (state : GarbageCollection Object) : Action Object → Prop
  | .insert object _ => state.inserted object = false
  | .commit height => state.committed ≤ height
  | .startPass => state.pass = none ∧ state.hotstuffHeightToGc.isSome = true
  | .stepPass => state.pass.isSome = true

instance decidableEnabled (state : GarbageCollection Object) :
    (action : Action Object) → Decidable (state.Enabled action)
  | .insert _ _ => inferInstanceAs (Decidable (_ = _))
  | .commit _ => inferInstanceAs (Decidable (_ ≤ _))
  | .startPass => inferInstanceAs (Decidable (_ ∧ _))
  | .stepPass => inferInstanceAs (Decidable (_ = _))

/-- `push_buffer_to_gc_list`, and take the height out of the slot. -/
def startPass (state : GarbageCollection Object) (hotstuffHeight : Nat) :
    GarbageCollection Object :=
  { state with
    gcList := state.gcList ++ state.gcListBuffer
    gcListBuffer := []
    hotstuffHeightToGc := none
    pass := some { hotstuffHeight := hotstuffHeight, iter := 0 } }

variable [DecidableEq Object]

def insert (state : GarbageCollection Object) (object : Object)
    (height : Nat) : GarbageCollection Object :=
  { state with
    inserted := Function.update state.inserted object true
    height := Function.update state.height object height
    gcListBuffer := state.gcListBuffer ++ [object] }

/-- `flush_from_memory` on the block at the iterator, which then leaves the
list. -/
def flushListed (state : GarbageCollection Object) (iter : Nat)
    (object : Object) : GarbageCollection Object :=
  { state with
    flushed := Function.update state.flushed object true
    gcList := swapRemove state.gcList iter object }

/-- One round of the loop in `do_gc`, or its end. -/
def stepPass (state : GarbageCollection Object) (pass : GcPass) :
    GarbageCollection Object :=
  match state.gcList[pass.iter]? with
  | none => { state with pass := none }
  | some object =>
      if state.height object < pass.hotstuffHeight then
        state.flushListed pass.iter object
      else { state with pass := some { pass with iter := pass.iter + 1 } }

def next (state : GarbageCollection Object) :
    Action Object → GarbageCollection Object
  | .insert object height => state.insert object height
  | .commit height =>
      { state with
        hotstuffHeightToGc := some (pruneHeight height)
        committed := height }
  | .startPass =>
      match state.hotstuffHeightToGc with
      | none => state
      | some hotstuffHeight => state.startPass hotstuffHeight
  | .stepPass =>
      match state.pass with
      | none => state
      | some pass => state.stepPass pass

/-- All interleavings of insertions, commits and rounds of the collector. -/
def system (Object : Type*) [DecidableEq Object] :
    TransitionSystem (GarbageCollection Object) (Action Object) where
  initial := fun state => ∃ committed, state = start committed
  enabled := Enabled
  next := next

instance decidableSystemEnabled (state : GarbageCollection Object)
    (action : Action Object) :
    Decidable ((system Object).enabled state action) :=
  decidableEnabled state action

/-! ### What the collector holds -/

/-- Exactly the inserted blocks that are not flushed are held, each at one
place of the list or the buffer. -/
def HeldOnce (state : GarbageCollection Object) : Prop :=
  ∀ object, (state.gcList ++ state.gcListBuffer).count object =
    if state.inserted object = true ∧ state.flushed object = false then 1
    else 0

/-- Flushed blocks are at least 101 below the committed height. -/
def FlushedOld (state : GarbageCollection Object) : Prop :=
  ∀ object, state.flushed object = true →
    state.inserted object = true ∧ state.height object + 101 ≤ state.committed

omit [DecidableEq Object] in
/-- A height of which `notify_ok_to_prune_blocks` was the origin. -/
def Requested (state : GarbageCollection Object) (hotstuffHeight : Nat) :
    Prop :=
  hotstuffHeight = 0 ∨ hotstuffHeight + 100 ≤ state.committed

structure Consistent (state : GarbageCollection Object) : Prop where
  heldOnce : state.HeldOnce
  flushedOld : state.FlushedOld
  slotRequested : ∀ hotstuffHeight,
    state.hotstuffHeightToGc = some hotstuffHeight →
      state.Requested hotstuffHeight
  passRequested : ∀ pass, state.pass = some pass →
    state.Requested pass.hotstuffHeight

theorem Consistent.mem_iff {state : GarbageCollection Object}
    (consistent : state.Consistent) (object : Object) :
    object ∈ state.gcList ++ state.gcListBuffer ↔
      state.inserted object = true ∧ state.flushed object = false := by
  rw [← List.count_pos_iff, consistent.heldOnce object]
  split <;> simp [*]

theorem Consistent.inserted_of_listed {state : GarbageCollection Object}
    (consistent : state.Consistent) {object : Object}
    (listed : object ∈ state.gcList) : state.inserted object = true :=
  ((consistent.mem_iff object).mp (List.mem_append_left _ listed)).1

theorem Consistent.start (committed : Nat) :
    (start committed : GarbageCollection Object).Consistent where
  heldOnce := fun _ => rfl
  flushedOld := fun _ flushed => nomatch flushed
  slotRequested := fun _ slot => nomatch slot
  passRequested := fun _ pass => nomatch pass

section Steps

variable {state : GarbageCollection Object} (consistent : state.Consistent)

include consistent

theorem Consistent.insert {object : Object} (height : Nat)
    (fresh : state.inserted object = false) :
    (state.insert object height).Consistent := by
  have notFlushed : state.flushed object = false := by
    cases flag : state.flushed object with
    | false => rfl
    | true => exact (consistent.flushedOld object flag).1.symm.trans fresh
  constructor
  · intro other
    have before := consistent.heldOnce other
    change (state.gcList ++ (state.gcListBuffer ++ [object])).count other =
      if Function.update state.inserted object true other = true ∧
        state.flushed other = false then 1 else 0
    rw [← List.append_assoc, List.count_append, before]
    by_cases same : other = object
    · subst same
      simp [fresh, notFlushed]
    · simp [Function.update_of_ne same, Ne.symm same]
  · intro other flushed
    have ne : other ≠ object := by
      rintro rfl
      exact Bool.false_ne_true (notFlushed.symm.trans flushed)
    obtain ⟨inserted, old⟩ := consistent.flushedOld other flushed
    simp only [GarbageCollection.insert, Function.update_of_ne ne]
    exact ⟨inserted, old⟩
  · exact consistent.slotRequested
  · exact consistent.passRequested

theorem Consistent.commit {height : Nat} (later : state.committed ≤ height) :
    (state.next (.commit height)).Consistent := by
  have older {hotstuffHeight : Nat}
      (requested : state.Requested hotstuffHeight) :
      (state.next (.commit height)).Requested hotstuffHeight :=
    requested.imp_right fun bound => Nat.le_trans bound later
  constructor
  · exact consistent.heldOnce
  · intro object flushed
    obtain ⟨inserted, old⟩ := consistent.flushedOld object flushed
    exact ⟨inserted, Nat.le_trans old later⟩
  · intro hotstuffHeight slot
    obtain rfl : pruneHeight height = hotstuffHeight := Option.some.inj slot
    change pruneHeight height = 0 ∨ pruneHeight height + 100 ≤ height
    dsimp only [pruneHeight]
    split <;> omega
  · intro pass passing
    exact older (consistent.passRequested pass passing)

theorem Consistent.startPass {hotstuffHeight : Nat}
    (slot : state.hotstuffHeightToGc = some hotstuffHeight) :
    (state.startPass hotstuffHeight).Consistent := by
  constructor
  · intro object
    change (state.gcList ++ state.gcListBuffer ++ []).count object = _
    rw [List.append_nil]
    exact consistent.heldOnce object
  · exact consistent.flushedOld
  · intro _ none
    cases none
  · intro pass passing
    cases passing
    exact consistent.slotRequested hotstuffHeight slot

theorem Consistent.flushListed {pass : GcPass} {object : Object}
    (passing : state.pass = some pass)
    (found : state.gcList[pass.iter]? = some object)
    (below : state.height object < pass.hotstuffHeight) :
    (state.flushListed pass.iter object).Consistent := by
  have inserted := consistent.inserted_of_listed (List.mem_of_getElem? found)
  have removed := perm_swapRemove found
  constructor
  · intro other
    have before := consistent.heldOnce other
    rw [List.count_append, removed.count_eq] at before
    change (swapRemove state.gcList pass.iter object ++
        state.gcListBuffer).count other =
      if state.inserted other = true ∧
        Function.update state.flushed object true other = false then 1 else 0
    rw [List.count_append]
    by_cases same : other = object
    · subst same
      rw [List.count_cons_self] at before
      rw [Function.update_self, if_neg (by simp)]
      split at before <;> omega
    · rw [List.count_cons_of_ne (Ne.symm same)] at before
      rw [Function.update_of_ne same]
      exact before
  · intro other flushed
    change Function.update state.flushed object true other = true at flushed
    by_cases same : other = object
    · subst same
      have requested := consistent.passRequested pass passing
      refine ⟨inserted, ?_⟩
      change state.height other + 101 ≤ state.committed
      rcases requested with zero | bound <;> omega
    · rw [Function.update_of_ne same] at flushed
      exact consistent.flushedOld other flushed
  · exact consistent.slotRequested
  · exact consistent.passRequested

theorem Consistent.stepPass {pass : GcPass}
    (passing : state.pass = some pass) : (state.stepPass pass).Consistent := by
  unfold GarbageCollection.stepPass
  split
  · exact { consistent with passRequested := fun _ none => nomatch none }
  rename_i object found
  split
  · rename_i below
    exact consistent.flushListed passing found below
  · refine { consistent with passRequested := ?_ }
    intro later moved
    cases moved
    exact consistent.passRequested pass passing

theorem Consistent.next {action : Action Object}
    (enabled : state.Enabled action) : (state.next action).Consistent := by
  cases action with
  | insert object height => exact consistent.insert height enabled
  | commit height => exact consistent.commit enabled
  | startPass =>
      obtain ⟨hotstuffHeight, slot⟩ :=
        Option.isSome_iff_exists.mp enabled.2
      simp only [GarbageCollection.next, slot]
      exact consistent.startPass slot
  | stepPass =>
      obtain ⟨pass, passing⟩ := Option.isSome_iff_exists.mp enabled
      simp only [GarbageCollection.next, passing]
      exact consistent.stepPass passing

end Steps

theorem consistent_of_reachable {state : GarbageCollection Object}
    (reached : (system Object).Reachable state) : state.Consistent := by
  refine reached.invariant Consistent ?_ ?_
  · rintro _ ⟨committed, rfl⟩
    exact .start committed
  · intro state action _ consistent enabled
    exact consistent.next enabled

/-! ### What a pass does -/

omit [DecidableEq Object] in
/-- The entries that the pass in progress has left behind; all of them when
there is none. -/
def scanned (state : GarbageCollection Object) : List Object :=
  match state.pass with
  | none => state.gcList
  | some pass => state.gcList.take pass.iter

/-- Between the start of a pass and a later state, `removed` are the blocks that
it has taken out of the list. -/
structure Passing (first state : GarbageCollection Object)
    (hotstuffHeight : Nat) (removed : List Object) : Prop where
  listed : first.gcList.Perm (state.gcList ++ removed)
  sameHeight : ∀ object ∈ first.gcList,
    state.height object = first.height object
  below : ∀ object ∈ removed, first.height object < hotstuffHeight
  flushed : ∀ object, state.flushed object = true ↔
    first.flushed object = true ∨ object ∈ removed
  kept : ∀ object ∈ state.scanned, hotstuffHeight ≤ first.height object
  samePass : ∀ pass, state.pass = some pass →
    pass.hotstuffHeight = hotstuffHeight

/-- Exactly the listed blocks below the height got flushed, and the others are
still listed. -/
structure Swept (first state : GarbageCollection Object)
    (hotstuffHeight : Nat) : Prop where
  flushed : ∀ object, state.flushed object = true ↔
    first.flushed object = true ∨
      object ∈ first.gcList ∧ first.height object < hotstuffHeight
  kept : state.gcList.Perm
    (first.gcList.filter fun object => hotstuffHeight ≤ first.height object)

omit [DecidableEq Object] in
theorem Passing.start (state : GarbageCollection Object)
    (hotstuffHeight : Nat) :
    Passing (state.startPass hotstuffHeight) (state.startPass hotstuffHeight)
      hotstuffHeight [] where
  listed := by rw [List.append_nil]
  sameHeight := fun _ _ => rfl
  below := by simp
  flushed := by simp
  kept := by simp [scanned, GarbageCollection.startPass]
  samePass := by
    intro pass passing
    cases passing
    rfl

section Passes

variable {first state : GarbageCollection Object} {hotstuffHeight : Nat}
  {removed : List Object}
  (passing : Passing first state hotstuffHeight removed)

include passing

omit [DecidableEq Object] in
theorem Passing.mem_first {object : Object} (listed : object ∈ state.gcList) :
    object ∈ first.gcList :=
  passing.listed.mem_iff.mpr (List.mem_append_left _ listed)

/-- A flushed block does not come back, so an insertion is about another
block. -/
theorem Passing.insert {object : Object} (height : Nat)
    (consistent : state.Consistent) (fresh : state.inserted object = false) :
    Passing first (state.insert object height) hotstuffHeight removed := by
  refine { passing with sameHeight := ?_ }
  intro other listed
  have ne : other ≠ object := by
    rintro rfl
    have inserted : state.inserted other = true := by
      rcases List.mem_append.mp (passing.listed.mem_iff.mp listed) with
        present | gone
      · exact consistent.inserted_of_listed present
      · exact (consistent.flushedOld other
          ((passing.flushed other).mpr (.inr gone))).1
    exact Bool.false_ne_true (fresh.symm.trans inserted)
  change Function.update state.height object height other = _
  rw [Function.update_of_ne ne]
  exact passing.sameHeight other listed

theorem Passing.flushListed {pass : GcPass} {object : Object}
    (current : state.pass = some pass)
    (found : state.gcList[pass.iter]? = some object)
    (below : state.height object < pass.hotstuffHeight) :
    Passing first (state.flushListed pass.iter object) hotstuffHeight
      (object :: removed) := by
  have listed := passing.mem_first (List.mem_of_getElem? found)
  have bound : pass.iter < state.gcList.length :=
    (List.getElem?_eq_some_iff.mp found).1
  constructor
  · calc first.gcList
      List.Perm _ (state.gcList ++ removed) := passing.listed
      List.Perm _ (object :: swapRemove state.gcList pass.iter object ++
          removed) := (perm_swapRemove found).append_right removed
      List.Perm _ (swapRemove state.gcList pass.iter object ++
          object :: removed) := List.perm_middle.symm
  · exact passing.sameHeight
  · intro other member
    rcases List.mem_cons.mp member with rfl | member
    · rw [passing.sameHeight other listed, passing.samePass pass current] at below
      exact below
    · exact passing.below other member
  · intro other
    change Function.update state.flushed object true other = true ↔ _
    by_cases same : other = object
    · simp [same]
    · rw [Function.update_of_ne same, passing.flushed other]
      simp [same]
  · have unchanged : (state.flushListed pass.iter object).scanned =
        state.scanned := by
      simp only [scanned, GarbageCollection.flushListed, current]
      exact take_swapRemove bound
    rw [unchanged]
    exact passing.kept
  · exact passing.samePass

theorem Passing.stepPass {pass : GcPass} (current : state.pass = some pass) :
    ∃ removed, Passing first (state.stepPass pass) hotstuffHeight removed := by
  have before := passing.kept
  simp only [scanned, current] at before
  unfold GarbageCollection.stepPass
  split
  · rename_i outside
    -- The iterator is at the end of the list.
    rw [List.take_of_length_le (List.getElem?_eq_none_iff.mp outside)] at before
    exact ⟨removed, { passing with
      kept := before
      samePass := fun _ none => nomatch none }⟩
  rename_i object found
  split
  · rename_i below
    exact ⟨_, passing.flushListed current found below⟩
  · rename_i notBelow
    have listed := passing.mem_first (List.mem_of_getElem? found)
    rw [passing.sameHeight object listed, passing.samePass pass current]
      at notBelow
    refine ⟨removed, { passing with kept := ?_, samePass := ?_ }⟩
    · intro other member
      change other ∈ state.gcList.take (pass.iter + 1) at member
      rw [List.take_add_one, found] at member
      rcases List.mem_append.mp member with member | member
      · exact before other member
      · obtain rfl : other = object := by simpa using member
        exact Nat.le_of_not_lt notBelow
    · intro later moved
      cases moved
      exact passing.samePass pass current

theorem Passing.next {action : Action Object} (consistent : state.Consistent)
    (enabled : state.Enabled action) (samePass : action ≠ .startPass) :
    ∃ removed, Passing first (state.next action) hotstuffHeight removed := by
  cases action with
  | insert object height =>
      exact ⟨removed, passing.insert height consistent enabled⟩
  | commit height => exact ⟨removed, { passing with }⟩
  | startPass => exact absurd rfl samePass
  | stepPass =>
      obtain ⟨pass, current⟩ := Option.isSome_iff_exists.mp enabled
      simp only [GarbageCollection.next, current]
      exact passing.stepPass current

omit [DecidableEq Object] in
/-- When the pass has ended, all that is left in the list is high. -/
theorem Passing.swept (ended : state.pass = none) :
    Swept first state hotstuffHeight := by
  have high := passing.kept
  simp only [scanned, ended] at high
  have removed_iff (object : Object) : object ∈ removed ↔
      object ∈ first.gcList ∧ first.height object < hotstuffHeight := by
    rw [passing.listed.mem_iff, List.mem_append]
    constructor
    · intro member
      exact ⟨.inr member, passing.below object member⟩
    · rintro ⟨member | member, below⟩
      · exact absurd below (Nat.not_lt.mpr (high object member))
      · exact member
  constructor
  · intro object
    rw [passing.flushed, removed_iff]
  · have filtered := passing.listed.filter
      fun object => decide (hotstuffHeight ≤ first.height object)
    have allKept : (state.gcList.filter fun object =>
        decide (hotstuffHeight ≤ first.height object)) = state.gcList := by
      apply List.filter_eq_self.mpr
      intro object member
      exact decide_eq_true (high object member)
    have noneKept : (removed.filter fun object =>
        decide (hotstuffHeight ≤ first.height object)) = [] := by
      apply List.filter_eq_nil_iff.mpr
      intro object member
      simpa using passing.below object member
    rw [List.filter_append, allKept, noneKept, List.append_nil] at filtered
    exact filtered.symm

end Passes

/-- The invariant is carried through everything that happens until the next
pass starts. -/
theorem Passing.run {first state : GarbageCollection Object}
    {hotstuffHeight : Nat} {removed : List Object}
    (passing : Passing first state hotstuffHeight removed)
    (reached : (system Object).Reachable state)
    {actions : List (Action Object)}
    (enabled : (system Object).EnabledAlong state actions)
    (samePass : .startPass ∉ actions) :
    ∃ removed, Passing first ((system Object).run state actions)
      hotstuffHeight removed := by
  induction actions generalizing state removed with
  | nil => exact ⟨removed, passing⟩
  | cons action actions ih =>
      have now : action ≠ .startPass := fun same =>
        samePass (same ▸ List.mem_cons_self)
      have later : .startPass ∉ actions := fun member =>
        samePass (List.mem_cons_of_mem _ member)
      obtain ⟨removed', passing'⟩ := passing.next
        (consistent_of_reachable reached) enabled.1 now
      exact ih passing' (reached.step enabled.1) enabled.2 later

/-- Every pass flushes exactly the listed blocks below its height, whatever
happens while it runs. -/
def PassesSweep (state : GarbageCollection Object) : Prop :=
  ∀ hotstuffHeight actions, state.pass = none →
    state.hotstuffHeightToGc = some hotstuffHeight →
    (system Object).EnabledAlong (state.next .startPass) actions →
    .startPass ∉ actions →
    ((system Object).run (state.next .startPass) actions).pass = none →
      Swept (state.next .startPass)
        ((system Object).run (state.next .startPass) actions) hotstuffHeight

theorem passesSweep_of_reachable {state : GarbageCollection Object}
    (reached : (system Object).Reachable state) : state.PassesSweep := by
  intro hotstuffHeight actions idle slot enabled samePass ended
  have started : state.next .startPass = state.startPass hotstuffHeight := by
    simp only [next, slot]
  have allowed : (system Object).enabled state .startPass :=
    ⟨idle, by simp [slot]⟩
  have begun := Passing.start state hotstuffHeight
  rw [← started] at begun
  obtain ⟨removed, passing⟩ :=
    begun.run (reached.step allowed) enabled samePass
  exact passing.swept ended

/-- A pass that runs on alone ends. -/
def PassEnds (state : GarbageCollection Object) : Prop :=
  ∃ rounds,
    (system Object).EnabledAlong state (List.replicate rounds .stepPass) ∧
      ((system Object).run state
        (List.replicate rounds .stepPass)).pass = none

/-- Every round shortens the part of the list that is still ahead. -/
theorem passEnds (state : GarbageCollection Object) : state.PassEnds := by
  cases current : state.pass with
  | none => exact ⟨0, trivial, current⟩
  | some pass =>
      induction size : state.gcList.length - pass.iter
        generalizing state pass with
      | zero =>
          have outside : state.gcList[pass.iter]? = none :=
            List.getElem?_eq_none (by omega)
          refine ⟨1, ⟨by simp [system, Enabled, current], trivial⟩, ?_⟩
          change (state.next .stepPass).pass = none
          simp only [next, current, stepPass, outside]
      | succ ahead ih =>
          have bound : pass.iter < state.gcList.length := by omega
          have moved : ∃ later,
              (state.next .stepPass).pass = some later ∧
              (state.next .stepPass).gcList.length - later.iter = ahead := by
            simp only [next, current, stepPass,
              List.getElem?_eq_getElem bound]
            split
            · refine ⟨pass, current, ?_⟩
              change (swapRemove _ _ _).length - pass.iter = ahead
              rw [length_swapRemove]
              omega
            · refine ⟨_, rfl, ?_⟩
              change state.gcList.length - (pass.iter + 1) = ahead
              omega
          obtain ⟨later, passing, shorter⟩ := moved
          obtain ⟨rounds, enabled, ended⟩ := ih _ later passing shorter
          exact ⟨rounds + 1, ⟨by simp [system, Enabled, current], enabled⟩, ended⟩

end GarbageCollection

end Hotstuff
