import Hotstuff.ForwardList
import Hotstuff.SpeculativeExecGadget
import Hotstuff.TransitionSystem
import Mathlib.Algebra.Group.Nat.Defs
import Mathlib.Data.Fintype.Card
import Mathlib.Data.List.Induction

/-!
# The speculation map in memory

`SpeculativeExecGadget` keeps its heights in a singly linked list, with an
iterator to the last element that is maintained next to it, and counts heights
in 64 bits.  The model has the nodes of the list, at addresses that the
allocator returns and that are used again after they were freed, and heights
that wrap around.

In every sequence of calls the list holds consecutive heights and the iterator
points to its end.  The addresses bound the length of the list, so no height is
pending twice, even where the heights have wrapped around.
-/

namespace Hotstuff

/-- The addresses of list nodes. -/
abbrev NodeAddress := Fin (2 ^ 64)

structure ForwardListGadget (VMValue : Type) where
  heightMap : ForwardList NodeAddress (UInt64 × VMValue)
  /-- null when it is `height_map.end()` -/
  lastEltIter : Option NodeAddress
  speculationHeadHotstuffHeight : UInt64
  highestCommittedHeight : UInt64

namespace ForwardListGadget

variable {VMValue : Type}

def init : ForwardListGadget VMValue where
  heightMap := .empty
  lastEltIter := none
  speculationHeadHotstuffHeight := 1
  highestCommittedHeight := 0

def empty (gadget : ForwardListGadget VMValue) : Bool :=
  gadget.lastEltIter.isNone

/-- What a call returns. -/
inductive Outcome (VMValue : Type)
  | returned
  /-- a warning was printed -/
  | warned
  | value (vmValue : VMValue)
  | thrown (message : String)
  deriving DecidableEq

/-- The call has not done what it was called for. -/
def Outcome.rejects : Outcome VMValue → Bool
  | .warned => true
  | .thrown _ => true
  | _ => false

/-- `address` is where the allocator puts a new node. -/
def addHeightPair (gadget : ForwardListGadget VMValue)
    (hotstuffHeight : UInt64) (vmValue : VMValue) (address : NodeAddress) :
    ForwardListGadget VMValue × Outcome VMValue :=
  if gadget.speculationHeadHotstuffHeight ≠ hotstuffHeight then
    (gadget, .warned)
  else
    let counted :=
      { gadget with
        speculationHeadHotstuffHeight :=
          gadget.speculationHeadHotstuffHeight + 1 }
    match gadget.lastEltIter with
    | none =>
        ({ counted with
          heightMap := gadget.heightMap.insertAfter .beforeBegin address
            (hotstuffHeight, vmValue)
          lastEltIter := some address }, .returned)
    | some last =>
        ({ counted with
          heightMap := gadget.heightMap.insertAfter (.node last) address
            (hotstuffHeight, vmValue)
          lastEltIter := some address }, .returned)

/-- A nonempty gadget with an empty list would read from a null pointer. -/
def onCommitHotstuff (gadget : ForwardListGadget VMValue)
    (hotstuffHeight : UInt64) :
    ForwardListGadget VMValue × Outcome VMValue :=
  if gadget.empty then
    (gadget, .thrown ("committing on empty map at hs height " ++
      toString hotstuffHeight))
  else
    match gadget.heightMap.front with
    | none => (gadget, .thrown "null pointer")
    | some front =>
        if hotstuffHeight ≠ front.1 then (gadget, .thrown "gap in commit log!")
        else
          let erased := gadget.heightMap.eraseAfter .beforeBegin
          ({ gadget with
            highestCommittedHeight := front.1
            heightMap := erased
            lastEltIter :=
              if erased.first = none then none else gadget.lastEltIter },
            .value front.2)

def clear (gadget : ForwardListGadget VMValue) : ForwardListGadget VMValue :=
  { gadget with
    heightMap := .empty
    lastEltIter := none
    speculationHeadHotstuffHeight := gadget.highestCommittedHeight + 1 }

def initFromDisk (gadget : ForwardListGadget VMValue)
    (highestDecidedHeight : UInt64) : ForwardListGadget VMValue :=
  { gadget with highestCommittedHeight := highestDecidedHeight }.clear

/-! ### Sequences of calls -/

inductive Call (VMValue : Type)
  | addHeightPair (hotstuffHeight : UInt64) (vmValue : VMValue)
      (address : NodeAddress)
  | onCommitHotstuff (hotstuffHeight : UInt64)
  | clear
  | initFromDisk (highestDecidedHeight : UInt64)

def perform (gadget : ForwardListGadget VMValue) :
    Call VMValue → ForwardListGadget VMValue × Outcome VMValue
  | .addHeightPair hotstuffHeight vmValue address =>
      gadget.addHeightPair hotstuffHeight vmValue address
  | .onCommitHotstuff hotstuffHeight => gadget.onCommitHotstuff hotstuffHeight
  | .clear => (gadget.clear, .returned)
  | .initFromDisk highestDecidedHeight =>
      (gadget.initFromDisk highestDecidedHeight, .returned)

/-- The allocator returns free memory to a call that makes a node. -/
def Allocates (gadget : ForwardListGadget VMValue) : Call VMValue → Prop
  | .addHeightPair hotstuffHeight _ address =>
      gadget.speculationHeadHotstuffHeight = hotstuffHeight →
        gadget.heightMap.nodes address = none
  | _ => True

instance decidableAllocates (gadget : ForwardListGadget VMValue) :
    (call : Call VMValue) → Decidable (gadget.Allocates call)
  | .addHeightPair _ _ _ => inferInstanceAs (Decidable (_ → _))
  | .onCommitHotstuff _ => inferInstanceAs (Decidable True)
  | .clear => inferInstanceAs (Decidable True)
  | .initFromDisk _ => inferInstanceAs (Decidable True)

/-! ### Consecutive heights -/

/-- The heights from `start` on, wrapping around after the largest. -/
def consecutive (start : UInt64) (count : Nat) : List UInt64 :=
  (List.range count).map fun index => start + UInt64.ofNat index

theorem consecutive_succ (start : UInt64) (count : Nat) :
    consecutive start (count + 1) = start :: consecutive (start + 1) count := by
  rw [consecutive, List.range_succ_eq_map, List.map_cons, List.map_map]
  congr 1
  · simp
  · apply List.map_congr_left
    intro index _
    simp only [Function.comp_apply, Nat.succ_eq_add_one, UInt64.ofNat_add]
    rw [UInt64.add_comm (UInt64.ofNat index), ← UInt64.add_assoc]
    rfl

theorem consecutive_concat (start : UInt64) (count : Nat) :
    consecutive start (count + 1) =
      consecutive start count ++ [start + UInt64.ofNat count] := by
  rw [consecutive, List.range_succ, List.map_append]
  rfl

/-- A height only comes back after all others. -/
theorem notMem_consecutive (start : UInt64) {count : Nat}
    (small : count < 2 ^ 64) :
    start + UInt64.ofNat count ∉ consecutive start count := by
  intro member
  obtain ⟨index, below, same⟩ := List.mem_map.mp member
  have below := List.mem_range.mp below
  have equal := congrArg UInt64.toNat ((UInt64.add_right_inj start).mp same)
  rw [UInt64.toNat_ofNat', UInt64.toNat_ofNat'] at equal
  omega

/-! ### What the gadget holds -/

/-- An entry of the list: an address, a height and a value. -/
abbrev Entry (VMValue : Type) := NodeAddress × UInt64 × VMValue

/-- The list holds the entries, whose heights follow the highest committed one
up to the head, and the iterator points to the last of them. -/
structure Holds (gadget : ForwardListGadget VMValue)
    (entries : List (Entry VMValue)) : Prop where
  represents : gadget.heightMap.Represents entries
  heights : entries.map (fun entry => entry.2.1) =
    consecutive (gadget.highestCommittedHeight + 1) entries.length
  head : gadget.speculationHeadHotstuffHeight =
    gadget.highestCommittedHeight + 1 + UInt64.ofNat entries.length
  last : gadget.lastEltIter = entries.getLast?.map Prod.fst

theorem holds_init : (init : ForwardListGadget VMValue).Holds [] :=
  ⟨ForwardList.represents_empty, rfl, rfl, rfl⟩

theorem holds_clear (gadget : ForwardListGadget VMValue) :
    gadget.clear.Holds [] where
  represents := ForwardList.represents_empty
  heights := rfl
  head := (UInt64.add_zero _).symm
  last := rfl

variable {gadget : ForwardListGadget VMValue}
  {entries : List (Entry VMValue)}

theorem Holds.empty_eq (holds : gadget.Holds entries) :
    gadget.empty = entries.isEmpty := by
  rw [ForwardListGadget.empty, holds.last]
  cases entries <;> simp

/-- The memory bounds the number of entries. -/
theorem Holds.length_lt (holds : gadget.Holds entries)
    {address : NodeAddress} (free : gadget.heightMap.nodes address = none) :
    entries.length < 2 ^ 64 := by
  have new := holds.represents.notMem_of_free free
  have distinct := List.nodup_cons.mpr ⟨new, holds.represents.distinct⟩
  have bound := distinct.length_le_card
  rw [Fintype.card_fin, List.length_cons, List.length_map] at bound
  omega

theorem addHeightPair_of_ne {hotstuffHeight : UInt64}
    (other : gadget.speculationHeadHotstuffHeight ≠ hotstuffHeight)
    (vmValue : VMValue) (address : NodeAddress) :
    gadget.addHeightPair hotstuffHeight vmValue address =
      (gadget, .warned) :=
  if_pos other

/-- The counters after an entry for the head has been appended to the list. -/
theorem Holds.extend (holds : gadget.Holds entries) (vmValue : VMValue)
    (address : NodeAddress)
    {heightMap : ForwardList NodeAddress (UInt64 × VMValue)}
    (represents : heightMap.Represents (entries ++
      [(address, gadget.speculationHeadHotstuffHeight, vmValue)])) :
    { gadget with
      speculationHeadHotstuffHeight :=
        gadget.speculationHeadHotstuffHeight + 1
      heightMap := heightMap
      lastEltIter := some address }.Holds (entries ++
        [(address, gadget.speculationHeadHotstuffHeight, vmValue)]) where
  represents := represents
  heights := by
    rw [List.map_append, holds.heights, List.length_append, List.length_cons,
      List.length_nil, consecutive_concat, ← holds.head]
    rfl
  head := by
    simp only [List.length_append, List.length_cons, List.length_nil]
    rw [holds.head, UInt64.ofNat_add, ← UInt64.add_assoc]
    rfl
  last := by simp

/-- At the head, the pair becomes the last entry. -/
theorem Holds.addHeightPair (holds : gadget.Holds entries)
    (vmValue : VMValue) {address : NodeAddress}
    (free : gadget.heightMap.nodes address = none) :
    let added := gadget.addHeightPair gadget.speculationHeadHotstuffHeight
      vmValue address
    added.2 = .returned ∧ added.1.Holds (entries ++
      [(address, gadget.speculationHeadHotstuffHeight, vmValue)]) := by
  intro added
  rcases List.eq_nil_or_concat entries with rfl | ⟨initial, last, rfl⟩
  · have atEnd : gadget.lastEltIter = none := holds.last
    have result : added =
        ({ gadget with
          speculationHeadHotstuffHeight :=
            gadget.speculationHeadHotstuffHeight + 1
          heightMap := gadget.heightMap.insertAfter .beforeBegin address
            (gadget.speculationHeadHotstuffHeight, vmValue)
          lastEltIter := some address }, .returned) := by
      simp only [added, ForwardListGadget.addHeightPair, atEnd, ne_eq,
        not_true_eq_false, if_false]
    rw [result]
    refine ⟨rfl, holds.extend vmValue address ?_⟩
    exact holds.represents.insertAfter_beforeBegin address _
  · have atLast : gadget.lastEltIter = some last.1 := by
      rw [holds.last]
      simp
    have result : added =
        ({ gadget with
          speculationHeadHotstuffHeight :=
            gadget.speculationHeadHotstuffHeight + 1
          heightMap := gadget.heightMap.insertAfter (.node last.1) address
            (gadget.speculationHeadHotstuffHeight, vmValue)
          lastEltIter := some address }, .returned) := by
      simp only [added, ForwardListGadget.addHeightPair, atLast, ne_eq,
        not_true_eq_false, if_false]
    rw [result]
    refine ⟨rfl, holds.extend vmValue address ?_⟩
    have represents := holds.represents
    rw [List.concat_eq_append] at represents ⊢
    exact represents.insertAfter_last free _

theorem Holds.onCommitHotstuff_nil (holds : gadget.Holds [])
    (hotstuffHeight : UInt64) :
    gadget.onCommitHotstuff hotstuffHeight =
      (gadget, .thrown ("committing on empty map at hs height " ++
        toString hotstuffHeight)) := by
  rw [onCommitHotstuff, holds.empty_eq]
  rfl

theorem Holds.onCommitHotstuff_gap {first : Entry VMValue}
    (holds : gadget.Holds (first :: entries)) {hotstuffHeight : UInt64}
    (gap : hotstuffHeight ≠ first.2.1) :
    gadget.onCommitHotstuff hotstuffHeight =
      (gadget, .thrown "gap in commit log!") := by
  have nonempty : gadget.empty = false := holds.empty_eq
  have front : gadget.heightMap.front = some first.2 := holds.represents.front
  simp [onCommitHotstuff, nonempty, front, gap]

/-- The iterator after the first entry has been erased: it moves only when the
list has become empty. -/
theorem getLast?_erased (first : Entry VMValue)
    {erased : ForwardList NodeAddress (UInt64 × VMValue)}
    (represents : erased.Represents entries) :
    (if erased.first = none then none
      else (first :: entries).getLast?.map Prod.fst) =
        entries.getLast?.map Prod.fst := by
  rw [represents.first]
  cases entries with
  | nil => rfl
  | cons second entries => simp [List.getLast?_cons_cons]

/-- The lowest height is taken from the list. -/
theorem Holds.onCommitHotstuff_eq {first : Entry VMValue}
    (holds : gadget.Holds (first :: entries)) :
    gadget.onCommitHotstuff first.2.1 =
      ({ gadget with
        highestCommittedHeight := first.2.1
        heightMap := gadget.heightMap.eraseAfter .beforeBegin
        lastEltIter := entries.getLast?.map Prod.fst }, .value first.2.2) := by
  have nonempty : gadget.empty = false := holds.empty_eq
  have front : gadget.heightMap.front = some first.2 := holds.represents.front
  have erased := holds.represents.eraseAfter_beforeBegin
  simp only [onCommitHotstuff, nonempty, front, holds.last,
    getLast?_erased first erased, Bool.false_eq_true, if_false, ne_eq,
    not_true_eq_false]

theorem Holds.onCommitHotstuff_first {first : Entry VMValue}
    (holds : gadget.Holds (first :: entries)) :
    (gadget.onCommitHotstuff first.2.1).1.Holds entries := by
  have heights := holds.heights
  rw [List.map_cons, List.length_cons, consecutive_succ,
    List.cons.injEq] at heights
  rw [holds.onCommitHotstuff_eq]
  refine ⟨holds.represents.eraseAfter_beforeBegin, ?_, ?_, rfl⟩
  · simp only
    rw [heights.1]
    exact heights.2
  · simp only
    rw [holds.head, heights.1, List.length_cons, Nat.add_comm,
      UInt64.ofNat_add, ← UInt64.add_assoc]
    rfl

end ForwardListGadget

/-- A gadget, and the calls so far with what they returned, oldest first. -/
structure GadgetRun (VMValue : Type) where
  gadget : ForwardListGadget VMValue
  calls : List (ForwardListGadget.Call VMValue ×
    ForwardListGadget.Outcome VMValue)

namespace GadgetRun

variable {VMValue : Type}

open ForwardListGadget (Call Outcome)

/-- All sequences of calls on a new gadget. -/
def system : TransitionSystem (GadgetRun VMValue) (Call VMValue) where
  initial := fun run => run = ⟨.init, []⟩
  enabled := fun run call => run.gadget.Allocates call
  next := fun run call =>
    ⟨(run.gadget.perform call).1,
      run.calls ++ [(call, (run.gadget.perform call).2)]⟩

instance decidableSystem (run : GadgetRun VMValue) (call : Call VMValue) :
    Decidable (system.enabled run call) :=
  inferInstanceAs (Decidable (run.gadget.Allocates call))

/-- The value that was added for the height most recently, if any was since the
gadget was cleared. -/
def latestAfter (hotstuffHeight : UInt64) (latest : Option VMValue) :
    Call VMValue × Outcome VMValue → Option VMValue
  | (.addHeightPair added vmValue _, .returned) =>
      if added = hotstuffHeight then some vmValue else latest
  | (.clear, _) => none
  | (.initFromDisk _, _) => none
  | _ => latest

def latestValue (run : GadgetRun VMValue) (hotstuffHeight : UInt64) :
    Option VMValue :=
  run.calls.foldl (latestAfter hotstuffHeight) none

/-! ### Every sequence of calls -/

theorem latestValue_next (run : GadgetRun VMValue) (call : Call VMValue)
    (hotstuffHeight : UInt64) :
    (system.next run call).latestValue hotstuffHeight =
      latestAfter hotstuffHeight (run.latestValue hotstuffHeight)
        (call, (run.gadget.perform call).2) := by
  simp [latestValue, system]

/-- The gadget holds the entries, each with the value that was added last for
its height. -/
structure Tracks (run : GadgetRun VMValue)
    (entries : List (ForwardListGadget.Entry VMValue)) : Prop where
  holds : run.gadget.Holds entries
  latest : ∀ entry ∈ entries, run.latestValue entry.2.1 = some entry.2.2

variable {run : GadgetRun VMValue}
  {entries : List (ForwardListGadget.Entry VMValue)}

theorem Tracks.addHeightPair (tracks : run.Tracks entries)
    (vmValue : VMValue) {address : NodeAddress}
    (free : run.gadget.heightMap.nodes address = none) :
    (system.next run (.addHeightPair
        run.gadget.speculationHeadHotstuffHeight vmValue address)).Tracks
      (entries ++
        [(address, run.gadget.speculationHeadHotstuffHeight, vmValue)]) := by
  obtain ⟨returned, extended⟩ := tracks.holds.addHeightPair vmValue free
  refine ⟨extended, ?_⟩
  intro entry member
  rw [latestValue_next]
  simp only [ForwardListGadget.perform, returned, latestAfter]
  rcases List.mem_append.mp member with old | new
  · -- the head is not the height of an entry that is still there
    have notHead : run.gadget.speculationHeadHotstuffHeight ≠ entry.2.1 := by
      intro same
      have small := tracks.holds.length_lt free
      apply ForwardListGadget.notMem_consecutive
        (run.gadget.highestCommittedHeight + 1) small
      rw [← tracks.holds.heights, ← tracks.holds.head, same]
      exact List.mem_map_of_mem old
    rw [if_neg notHead]
    exact tracks.latest entry old
  · obtain rfl := List.mem_singleton.mp new
    rw [if_pos rfl]

theorem Tracks.next (tracks : run.Tracks entries) {call : Call VMValue}
    (allowed : run.gadget.Allocates call) :
    ∃ after, (system.next run call).Tracks after := by
  cases call with
  | addHeightPair hotstuffHeight vmValue address =>
      by_cases atHead :
          run.gadget.speculationHeadHotstuffHeight = hotstuffHeight
      · subst atHead
        exact ⟨_, tracks.addHeightPair vmValue (allowed rfl)⟩
      · have dropped := ForwardListGadget.addHeightPair_of_ne atHead vmValue
          address
        refine ⟨entries, ?_, ?_⟩
        · simpa [system, ForwardListGadget.perform, dropped] using tracks.holds
        · intro entry member
          rw [latestValue_next]
          simp only [ForwardListGadget.perform, dropped, latestAfter]
          exact tracks.latest entry member
  | onCommitHotstuff hotstuffHeight =>
      have sameLatest : ∀ height, (system.next run
          (.onCommitHotstuff hotstuffHeight)).latestValue height =
            run.latestValue height := by
        intro height
        rw [latestValue_next]
        rfl
      cases entries with
      | nil =>
          have thrown := tracks.holds.onCommitHotstuff_nil hotstuffHeight
          refine ⟨[], ?_, by simp⟩
          simpa [system, ForwardListGadget.perform, thrown] using tracks.holds
      | cons first rest =>
          by_cases lowest : hotstuffHeight = first.2.1
          · subst lowest
            refine ⟨rest, tracks.holds.onCommitHotstuff_first, ?_⟩
            intro entry member
            rw [sameLatest]
            exact tracks.latest entry (List.mem_cons_of_mem _ member)
          · have thrown := tracks.holds.onCommitHotstuff_gap lowest
            refine ⟨first :: rest, ?_, ?_⟩
            · simpa [system, ForwardListGadget.perform, thrown] using
                tracks.holds
            · intro entry member
              rw [sameLatest]
              exact tracks.latest entry member
  | clear =>
      exact ⟨[], ForwardListGadget.holds_clear _, by simp⟩
  | initFromDisk highestDecidedHeight =>
      exact ⟨[], ForwardListGadget.holds_clear _, by simp⟩

theorem tracks_of_reachable
    (reachable : system.Reachable run) :
    ∃ entries, run.Tracks entries := by
  refine reachable.invariant (fun run => ∃ entries, run.Tracks entries) ?_ ?_
  · rintro start rfl
    exact ⟨[], ForwardListGadget.holds_init, by simp⟩
  · rintro before call - ⟨entries, tracks⟩ allowed
    exact tracks.next allowed

/-- The gadget is a queue of consecutive heights: a pair for the head is added
at its end, a commit takes the lowest height off with the value that was added
for it last, and calls that are rejected change nothing. -/
structure ContiguousFifo (run : GadgetRun VMValue)
    (entries : List (ForwardListGadget.Entry VMValue)) : Prop where
  holds : run.gadget.Holds entries
  adds : ∀ vmValue address, run.gadget.heightMap.nodes address = none →
    let head := run.gadget.speculationHeadHotstuffHeight
    let added := run.gadget.addHeightPair head vmValue address
    added.2 = .returned ∧
      added.1.Holds (entries ++ [(address, head, vmValue)]) ∧
      added.1.highestCommittedHeight = run.gadget.highestCommittedHeight
  drops : ∀ hotstuffHeight vmValue address,
    run.gadget.speculationHeadHotstuffHeight ≠ hotstuffHeight →
      (run.gadget.addHeightPair hotstuffHeight vmValue address).2 = .warned
  succeeds : ∀ hotstuffHeight,
    (∃ vmValue, (run.gadget.onCommitHotstuff hotstuffHeight).2 =
      .value vmValue) ↔
    entries.head?.map (fun entry => entry.2.1) = some hotstuffHeight
  takes : ∀ hotstuffHeight vmValue,
    (run.gadget.onCommitHotstuff hotstuffHeight).2 = .value vmValue →
      run.latestValue hotstuffHeight = some vmValue ∧
      (run.gadget.onCommitHotstuff hotstuffHeight).1.Holds entries.tail ∧
      (run.gadget.onCommitHotstuff hotstuffHeight).1.highestCommittedHeight =
        hotstuffHeight
  clears : run.gadget.clear.Holds [] ∧
    run.gadget.clear.highestCommittedHeight = run.gadget.highestCommittedHeight
  reloads : ∀ highestDecidedHeight,
    (run.gadget.initFromDisk highestDecidedHeight).Holds [] ∧
      (run.gadget.initFromDisk highestDecidedHeight).highestCommittedHeight =
        highestDecidedHeight
  unchanged : ∀ call, (run.gadget.perform call).2.rejects = true →
    (run.gadget.perform call).1 = run.gadget

end GadgetRun

namespace ForwardListGadget

variable {VMValue : Type} {gadget : ForwardListGadget VMValue}
  {entries : List (Entry VMValue)}

/-- A commit succeeds on the first entry, and returns its value. -/
theorem Holds.onCommitHotstuff_value_iff (holds : gadget.Holds entries)
    (hotstuffHeight : UInt64) (vmValue : VMValue) :
    (gadget.onCommitHotstuff hotstuffHeight).2 = .value vmValue ↔
      entries.head?.map Prod.snd = some (hotstuffHeight, vmValue) := by
  cases entries with
  | nil => simp [holds.onCommitHotstuff_nil]
  | cons first rest =>
      by_cases lowest : hotstuffHeight = first.2.1
      · subst lowest
        rw [holds.onCommitHotstuff_eq]
        simp [Prod.ext_iff]
      · rw [holds.onCommitHotstuff_gap lowest]
        simp [Prod.ext_iff, Ne.symm lowest]

/-- A commit that succeeds takes the first entry off. -/
theorem Holds.onCommitHotstuff_taken (holds : gadget.Holds entries)
    {hotstuffHeight : UInt64} {vmValue : VMValue}
    (committed : (gadget.onCommitHotstuff hotstuffHeight).2 = .value vmValue) :
    (gadget.onCommitHotstuff hotstuffHeight).1.Holds entries.tail ∧
      (gadget.onCommitHotstuff hotstuffHeight).1.highestCommittedHeight =
        hotstuffHeight := by
  rw [holds.onCommitHotstuff_value_iff] at committed
  cases entries with
  | nil => cases committed
  | cons first rest =>
      obtain ⟨rfl, rfl⟩ := Prod.ext_iff.mp (Option.some.inj committed)
      refine ⟨holds.onCommitHotstuff_first, ?_⟩
      rw [holds.onCommitHotstuff_eq]

/-- What is rejected is rejected before anything was changed. -/
theorem perform_rejected {call : Call VMValue}
    (rejected : (gadget.perform call).2.rejects = true) :
    (gadget.perform call).1 = gadget := by
  cases call with
  | addHeightPair hotstuffHeight vmValue address =>
      simp only [perform, addHeightPair] at rejected ⊢
      split
      · rfl
      · rename_i atHead
        rw [if_neg atHead] at rejected
        cases iterator : gadget.lastEltIter <;>
          simp [iterator, Outcome.rejects] at rejected
  | onCommitHotstuff hotstuffHeight =>
      simp only [perform, onCommitHotstuff] at rejected ⊢
      split
      · rfl
      · rename_i nonempty
        rw [if_neg nonempty] at rejected
        split
        · rfl
        · rename_i front found
          simp only [found] at rejected
          split
          · rfl
          · rename_i lowest
            rw [if_neg lowest] at rejected
            cases rejected
  | clear => cases rejected
  | initFromDisk highestDecidedHeight => cases rejected

/-! ### The map of heights as a list -/

section Refinement

variable {Thread : Type*}

/-- The gadget holds what the map as a list has, with the same counters. -/
structure Denotes (gadget : ForwardListGadget VMValue)
    (map : SpeculativeExecGadget VMValue Thread) : Prop where
  pairs : ∃ entries, gadget.Holds entries ∧
    map.heightMap = entries.map fun entry => (entry.2.1.toNat, entry.2.2)
  head : map.speculationHeadHotstuffHeight =
    gadget.speculationHeadHotstuffHeight.toNat
  committed : map.highestCommittedHeight =
    gadget.highestCommittedHeight.toNat

variable {map : SpeculativeExecGadget VMValue Thread}

theorem denotes_init :
    (init : ForwardListGadget VMValue).Denotes
      (.init : SpeculativeExecGadget VMValue Thread) :=
  ⟨⟨[], holds_init, rfl⟩, rfl, rfl⟩

theorem toNat_succ {height : UInt64} (room : height.toNat + 1 < 2 ^ 64) :
    (height + 1).toNat = height.toNat + 1 := by
  rw [UInt64.toNat_add]
  exact Nat.mod_eq_of_lt room

theorem counters_addHeightPair (gadget : ForwardListGadget VMValue)
    (vmValue : VMValue) (address : NodeAddress) :
    let added := (gadget.addHeightPair gadget.speculationHeadHotstuffHeight
      vmValue address).1
    added.speculationHeadHotstuffHeight =
        gadget.speculationHeadHotstuffHeight + 1 ∧
      added.highestCommittedHeight = gadget.highestCommittedHeight := by
  cases iterator : gadget.lastEltIter <;>
    simp [ForwardListGadget.addHeightPair, iterator]

theorem Denotes.addHeightPair (denotes : gadget.Denotes map)
    (room : gadget.speculationHeadHotstuffHeight.toNat + 1 < 2 ^ 64)
    {hotstuffHeight : UInt64} (vmValue : VMValue) {address : NodeAddress}
    (free : gadget.speculationHeadHotstuffHeight = hotstuffHeight →
      gadget.heightMap.nodes address = none) :
    (gadget.addHeightPair hotstuffHeight vmValue address).1.Denotes
      (map.addHeightPair hotstuffHeight.toNat vmValue) := by
  by_cases atHead : gadget.speculationHeadHotstuffHeight = hotstuffHeight
  · subst atHead
    obtain ⟨entries, holds, pairs⟩ := denotes.pairs
    obtain ⟨head, committed⟩ :=
      counters_addHeightPair gadget vmValue address
    rw [SpeculativeExecGadget.addHeightPair_head denotes.head.symm]
    refine ⟨⟨_, (holds.addHeightPair vmValue (free rfl)).2, ?_⟩, ?_, ?_⟩
    · simp [pairs]
    · rw [head, toNat_succ room]
    · rw [committed]
      exact denotes.committed
  · have otherHead :
        map.speculationHeadHotstuffHeight ≠ hotstuffHeight.toNat := by
      rw [denotes.head]
      intro same
      exact atHead (UInt64.toNat_inj.mp same)
    rw [addHeightPair_of_ne atHead, SpeculativeExecGadget.addHeightPair,
      if_pos otherHead]
    exact denotes

theorem Denotes.onCommitHotstuff (denotes : gadget.Denotes map)
    (hotstuffHeight : UInt64) :
    match map.onCommitHotstuff hotstuffHeight.toNat with
    | .ok (vmValue, remaining) =>
        (gadget.onCommitHotstuff hotstuffHeight).2 = .value vmValue ∧
          (gadget.onCommitHotstuff hotstuffHeight).1.Denotes remaining
    | .error message =>
        gadget.onCommitHotstuff hotstuffHeight = (gadget, .thrown message) := by
  obtain ⟨entries, holds, pairs⟩ := denotes.pairs
  cases entries with
  | nil =>
      have nothing : map.heightMap = [] := pairs
      simp only [SpeculativeExecGadget.onCommitHotstuff, nothing]
      exact holds.onCommitHotstuff_nil hotstuffHeight
  | cons first rest =>
      rw [List.map_cons] at pairs
      by_cases lowest : hotstuffHeight = first.2.1
      · subst lowest
        have remaining := holds.onCommitHotstuff_first
        simp only [SpeculativeExecGadget.onCommitHotstuff, pairs, ne_eq,
          not_true_eq_false, if_false]
        rw [holds.onCommitHotstuff_eq] at remaining ⊢
        exact ⟨rfl, ⟨rest, remaining, rfl⟩, denotes.head, rfl⟩
      · have gap : hotstuffHeight.toNat ≠ first.2.1.toNat := by
          intro same
          exact lowest (UInt64.toNat_inj.mp same)
        simp only [SpeculativeExecGadget.onCommitHotstuff, pairs, if_pos gap]
        exact holds.onCommitHotstuff_gap lowest

theorem Denotes.clear (denotes : gadget.Denotes map)
    (room : gadget.highestCommittedHeight.toNat + 1 < 2 ^ 64)
    (thread : Thread) : gadget.clear.Denotes (map.clear thread) where
  pairs := ⟨[], holds_clear gadget, rfl⟩
  head := by
    refine Eq.trans ?_ (toNat_succ room).symm
    rw [← denotes.committed]
    rfl
  committed := denotes.committed

theorem denotes_initFromDisk (gadget : ForwardListGadget VMValue)
    {highestDecidedHeight : UInt64}
    (room : highestDecidedHeight.toNat + 1 < 2 ^ 64) (thread : Thread) :
    (gadget.initFromDisk highestDecidedHeight).Denotes
      (.initFromDisk highestDecidedHeight.toNat thread :
        SpeculativeExecGadget VMValue Thread) where
  pairs := ⟨[], holds_clear _, rfl⟩
  head := (toNat_succ room).symm
  committed := rfl

/-- The call on the map as a list.  A rejected commit leaves it as it is. -/
def Call.onMap (thread : Thread) (map : SpeculativeExecGadget VMValue Thread) :
    Call VMValue → SpeculativeExecGadget VMValue Thread
  | .addHeightPair hotstuffHeight vmValue _ =>
      map.addHeightPair hotstuffHeight.toNat vmValue
  | .onCommitHotstuff hotstuffHeight =>
      match map.onCommitHotstuff hotstuffHeight.toNat with
      | .ok (_, remaining) => remaining
      | .error _ => map
  | .clear => map.clear thread
  | .initFromDisk highestDecidedHeight =>
      .initFromDisk highestDecidedHeight.toNat thread

/-- No counter passes the largest height. -/
def HasRoom (run : GadgetRun VMValue) : Call VMValue → Prop
  | .addHeightPair _ _ _ =>
      run.gadget.speculationHeadHotstuffHeight.toNat + 1 < 2 ^ 64
  | .onCommitHotstuff _ => True
  | .clear => run.gadget.highestCommittedHeight.toNat + 1 < 2 ^ 64
  | .initFromDisk highestDecidedHeight =>
      highestDecidedHeight.toNat + 1 < 2 ^ 64

instance decidableHasRoom (run : GadgetRun VMValue) :
    (call : Call VMValue) → Decidable (HasRoom run call)
  | .addHeightPair _ _ _ => inferInstanceAs (Decidable (_ < _))
  | .onCommitHotstuff _ => inferInstanceAs (Decidable True)
  | .clear => inferInstanceAs (Decidable (_ < _))
  | .initFromDisk _ => inferInstanceAs (Decidable (_ < _))

theorem Denotes.perform {run : GadgetRun VMValue}
    (denotes : run.gadget.Denotes map) {call : Call VMValue}
    (allocates : run.gadget.Allocates call) (room : HasRoom run call)
    (thread : Thread) :
    (run.gadget.perform call).1.Denotes (call.onMap thread map) := by
  cases call with
  | addHeightPair hotstuffHeight vmValue address =>
      exact denotes.addHeightPair room vmValue allocates
  | onCommitHotstuff hotstuffHeight =>
      have committed := denotes.onCommitHotstuff hotstuffHeight
      simp only [ForwardListGadget.perform, Call.onMap]
      cases result : map.onCommitHotstuff hotstuffHeight.toNat with
      | ok popped =>
          rw [result] at committed
          exact committed.2
      | error message =>
          rw [result] at committed
          dsimp only at committed ⊢
          rw [committed]
          exact denotes
  | clear => exact denotes.clear room thread
  | initFromDisk highestDecidedHeight =>
      exact denotes_initFromDisk run.gadget room thread

/-- As long as the heights do not wrap around, the gadget does what the map as a
list does under the same calls. -/
theorem denotes_of_reachable {run : GadgetRun VMValue}
    (reachable : (GadgetRun.system.restrict HasRoom).Reachable run)
    (thread : Thread) :
    run.gadget.Denotes (run.calls.foldl
      (fun map call => call.1.onMap thread map)
      (.init : SpeculativeExecGadget VMValue Thread)) := by
  refine reachable.invariant (fun run => run.gadget.Denotes (run.calls.foldl
    (fun map call => call.1.onMap thread map) .init)) ?_ ?_
  · rintro _ rfl
    exact denotes_init
  · intro state call _ denotes allowed
    have stepped := denotes.perform allowed.1 allowed.2 thread
    simpa [GadgetRun.system, TransitionSystem.restrict] using stepped

end Refinement

end ForwardListGadget

/-- In every sequence of calls the speculation gadget is a contiguous queue.
Where no counter passes the largest height, it holds what the map of the bridge
holds after the same calls. -/
theorem speculation_list_fifo {VMValue : Type} {run : GadgetRun VMValue}
    (reachable : GadgetRun.system.Reachable run) :
    (∃ entries, run.ContiguousFifo entries) ∧
      ∀ (Thread : Type) (thread : Thread),
        (GadgetRun.system.restrict
          ForwardListGadget.HasRoom).Reachable run →
        run.gadget.Denotes (run.calls.foldl
          (fun map call => call.1.onMap thread map)
          (.init : SpeculativeExecGadget VMValue Thread)) := by
  obtain ⟨entries, tracks⟩ := GadgetRun.tracks_of_reachable reachable
  refine ⟨⟨entries, tracks.holds, ?_, ?_, ?_, ?_, ?_, ?_, ?_⟩, ?_⟩
  · intro vmValue address free
    have added := tracks.holds.addHeightPair vmValue free
    have counters := ForwardListGadget.counters_addHeightPair run.gadget
      vmValue address
    exact ⟨added.1, added.2, counters.2⟩
  · intro hotstuffHeight vmValue address other
    rw [ForwardListGadget.addHeightPair_of_ne other]
  · intro hotstuffHeight
    simp only [tracks.holds.onCommitHotstuff_value_iff]
    cases entries.head? <;> simp [Prod.ext_iff]
  · intro hotstuffHeight vmValue committed
    refine ⟨?_, tracks.holds.onCommitHotstuff_taken committed⟩
    rw [tracks.holds.onCommitHotstuff_value_iff] at committed
    obtain ⟨entry, first, pair⟩ := Option.map_eq_some_iff.mp committed
    have latest := tracks.latest entry (List.mem_of_head? first)
    rwa [pair] at latest
  · exact ⟨ForwardListGadget.holds_clear _, rfl⟩
  · intro highestDecidedHeight
    exact ⟨ForwardListGadget.holds_clear _, rfl⟩
  · intro call rejected
    exact ForwardListGadget.perform_rejected rejected
  · intro Thread thread roomy
    exact ForwardListGadget.denotes_of_reachable roomy thread

/-! ### Past the largest height -/

namespace Symbolic

open ForwardListGadget in
/-- Two heights are added and committed and a third one is dropped; then the
gadget is reloaded at the largest height, and the memory is used again. -/
def reloadedCalls : List (Call Nat) :=
  [.addHeightPair 1 10 0, .addHeightPair 2 20 1, .addHeightPair 7 70 2,
    .onCommitHotstuff 1, .onCommitHotstuff 2, .initFromDisk (0 - 1),
    .addHeightPair 0 30 1, .addHeightPair 1 40 0]

end Symbolic

open Symbolic in
theorem speculation_list_reloaded :
    let run := GadgetRun.system.run ⟨.init, []⟩ reloadedCalls
    let early := GadgetRun.system.run ⟨.init, []⟩ (reloadedCalls.take 5)
    (run.gadget.onCommitHotstuff 0).2 = .value 30 ∧
      (run.gadget.onCommitHotstuff 1).2.rejects = true ∧
      (∃ entries, run.ContiguousFifo entries) ∧
      early.gadget.Denotes (early.calls.foldl
        (fun map call => call.1.onMap () map)
        (.init : SpeculativeExecGadget Nat Unit)) := by
  intro run early
  have reachable : GadgetRun.system.Reachable run := by
    refine .run (.initial rfl) ?_
    decide +kernel
  have roomy : (GadgetRun.system.restrict
      ForwardListGadget.HasRoom).Reachable early := by
    refine .run (.initial rfl) ?_
    decide +kernel
  have refines := (speculation_list_fifo roomy.of_restrict).2 Unit () roomy
  refine ⟨?_, ?_, (speculation_list_fifo reachable).1, refines⟩ <;>
    decide +kernel

end Hotstuff
