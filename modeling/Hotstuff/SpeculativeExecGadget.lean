import Hotstuff.Mutex

/-!
# The speculation map

`SpeculativeExecGadget` records which VM value was executed speculatively at
which hotstuff height, lowest height first.  Heights enter in order, one after
the other, and leave in the same order when they commit.  The gadget owns a
mutex: `on_commit_hotstuff` and `clear` lock it themselves, the other methods
leave that to the caller.
-/

namespace Hotstuff

structure SpeculativeExecGadget (VMValue Thread : Type*) where
  /-- hotstuff heights and VM values, lowest height first -/
  heightMap : List (Nat × VMValue)
  mtx : Mutex Thread
  speculationHeadHotstuffHeight : Nat
  highestCommittedHeight : Nat

namespace SpeculativeExecGadget

variable {VMValue Thread : Type*}

def init : SpeculativeExecGadget VMValue Thread where
  heightMap := []
  mtx := .free
  speculationHeadHotstuffHeight := 1
  highestCommittedHeight := 0

def lock (gadget : SpeculativeExecGadget VMValue Thread) (thread : Thread) :
    SpeculativeExecGadget VMValue Thread :=
  { gadget with mtx := gadget.mtx.lock thread }

/-- The end of the scope of a `lock_guard`. -/
def unlock (gadget : SpeculativeExecGadget VMValue Thread) :
    SpeculativeExecGadget VMValue Thread :=
  { gadget with mtx := gadget.mtx.unlock }

/-- A height other than the head is dropped, with a warning. -/
def addHeightPair (gadget : SpeculativeExecGadget VMValue Thread)
    (hotstuffHeight : Nat) (vmValue : VMValue) :
    SpeculativeExecGadget VMValue Thread :=
  if gadget.speculationHeadHotstuffHeight ≠ hotstuffHeight then gadget
  else
    { gadget with
      speculationHeadHotstuffHeight := gadget.speculationHeadHotstuffHeight + 1
      heightMap := gadget.heightMap ++ [(hotstuffHeight, vmValue)] }

def empty (gadget : SpeculativeExecGadget VMValue Thread) : Bool :=
  gadget.heightMap.isEmpty

def getLowestSpeculativeHotstuffHeight
    (gadget : SpeculativeExecGadget VMValue Thread) :
    Except String (Nat × VMValue) :=
  match gadget.heightMap with
  | [] => .error "can't access from empty list!"
  | lowest :: _ => .ok lowest

/-- Both the value of the committed height and the remaining map; the lock is
released on every path. -/
def onCommitHotstuff (gadget : SpeculativeExecGadget VMValue Thread)
    (hotstuffHeight : Nat) :
    Except String (VMValue × SpeculativeExecGadget VMValue Thread) :=
  match gadget.heightMap with
  | [] => .error ("committing on empty map at hs height " ++
      toString hotstuffHeight)
  | front :: rest =>
      if hotstuffHeight ≠ front.1 then .error "gap in commit log!"
      else .ok (front.2,
        { gadget with highestCommittedHeight := front.1, heightMap := rest })

def clear (gadget : SpeculativeExecGadget VMValue Thread) (thread : Thread) :
    SpeculativeExecGadget VMValue Thread :=
  let locked := gadget.lock thread
  { locked with
    heightMap := []
    speculationHeadHotstuffHeight := locked.highestCommittedHeight + 1 }.unlock

/-- Start from a reloaded hotstuff height. -/
def initFromDisk (highestDecidedHeight : Nat) (thread : Thread) :
    SpeculativeExecGadget VMValue Thread :=
  { (init : SpeculativeExecGadget VMValue Thread) with
    highestCommittedHeight := highestDecidedHeight }.clear thread

/-- The recorded heights follow the highest committed one without a gap, up to
the head. -/
structure Contiguous (gadget : SpeculativeExecGadget VMValue Thread) : Prop where
  heights : gadget.heightMap.map Prod.fst =
    List.range' (gadget.highestCommittedHeight + 1) gadget.heightMap.length
  head : gadget.speculationHeadHotstuffHeight =
    gadget.highestCommittedHeight + 1 + gadget.heightMap.length

theorem contiguous_init :
    (init : SpeculativeExecGadget VMValue Thread).Contiguous :=
  ⟨rfl, rfl⟩

variable {gadget : SpeculativeExecGadget VMValue Thread}

@[simp]
theorem contiguous_lock (thread : Thread) :
    (gadget.lock thread).Contiguous ↔ gadget.Contiguous :=
  ⟨fun contiguous => ⟨contiguous.heights, contiguous.head⟩,
    fun contiguous => ⟨contiguous.heights, contiguous.head⟩⟩

@[simp]
theorem contiguous_unlock :
    gadget.unlock.Contiguous ↔ gadget.Contiguous :=
  ⟨fun contiguous => ⟨contiguous.heights, contiguous.head⟩,
    fun contiguous => ⟨contiguous.heights, contiguous.head⟩⟩

@[simp]
theorem mtx_addHeightPair (hotstuffHeight : Nat) (vmValue : VMValue) :
    (gadget.addHeightPair hotstuffHeight vmValue).mtx = gadget.mtx := by
  unfold addHeightPair
  split <;> rfl

@[simp]
theorem highestCommittedHeight_addHeightPair (hotstuffHeight : Nat)
    (vmValue : VMValue) :
    (gadget.addHeightPair hotstuffHeight vmValue).highestCommittedHeight =
      gadget.highestCommittedHeight := by
  unfold addHeightPair
  split <;> rfl

/-- A pair is recorded at the end of the map or dropped. -/
theorem heightMap_addHeightPair (hotstuffHeight : Nat) (vmValue : VMValue) :
    ∃ recorded, (gadget.addHeightPair hotstuffHeight vmValue).heightMap =
      gadget.heightMap ++ recorded := by
  unfold addHeightPair
  split
  · exact ⟨[], (List.append_nil _).symm⟩
  · exact ⟨_, rfl⟩

theorem addHeightPair_head {hotstuffHeight : Nat}
    (atHead : hotstuffHeight = gadget.speculationHeadHotstuffHeight)
    (vmValue : VMValue) :
    gadget.addHeightPair hotstuffHeight vmValue =
      { gadget with
        speculationHeadHotstuffHeight := hotstuffHeight + 1
        heightMap := gadget.heightMap ++ [(hotstuffHeight, vmValue)] } := by
  subst atHead
  simp [addHeightPair]

theorem speculationHead_addHeightPair (hotstuffHeight : Nat)
    (vmValue : VMValue) :
    (gadget.addHeightPair hotstuffHeight vmValue).speculationHeadHotstuffHeight =
      if hotstuffHeight = gadget.speculationHeadHotstuffHeight then
        gadget.speculationHeadHotstuffHeight + 1
      else gadget.speculationHeadHotstuffHeight := by
  by_cases atHead : hotstuffHeight = gadget.speculationHeadHotstuffHeight
  · rw [addHeightPair_head atHead, if_pos atHead, atHead]
  · rw [addHeightPair, if_pos (Ne.symm atHead), if_neg atHead]

theorem Contiguous.addHeightPair (contiguous : gadget.Contiguous)
    (hotstuffHeight : Nat) (vmValue : VMValue) :
    (gadget.addHeightPair hotstuffHeight vmValue).Contiguous := by
  by_cases atHead : hotstuffHeight = gadget.speculationHeadHotstuffHeight
  · rw [addHeightPair_head atHead]
    have head := contiguous.head
    constructor
    · simp only [List.map_append, List.map_cons, List.map_nil,
        List.length_append, List.length_cons, List.length_nil]
      rw [contiguous.heights, List.range'_concat, atHead, head]
      simp
    · simp only [List.length_append, List.length_cons, List.length_nil]
      omega
  · have dropped : gadget.addHeightPair hotstuffHeight vmValue = gadget := by
      simp [SpeculativeExecGadget.addHeightPair, Ne.symm atHead]
    rwa [dropped]

theorem contiguous_clear (thread : Thread) :
    (gadget.clear thread).Contiguous :=
  ⟨rfl, rfl⟩

/-- A commit that succeeds takes the lowest pair, which has its height. -/
theorem onCommitHotstuff_ok {hotstuffHeight : Nat} {vmValue : VMValue}
    {remaining : SpeculativeExecGadget VMValue Thread}
    (popped : gadget.onCommitHotstuff hotstuffHeight =
      .ok (vmValue, remaining)) :
    ∃ rest, gadget.heightMap = (hotstuffHeight, vmValue) :: rest ∧
      remaining = { gadget with
        highestCommittedHeight := hotstuffHeight
        heightMap := rest } := by
  unfold onCommitHotstuff at popped
  split at popped
  · cases popped
  · rename_i front rest recorded
    split at popped
    · cases popped
    · rename_i same
      obtain rfl : hotstuffHeight = front.1 := not_not.mp same
      cases popped
      exact ⟨rest, recorded, rfl⟩

/-- The height after the highest committed one commits without an error when
something is recorded. -/
theorem Contiguous.onCommitHotstuff (contiguous : gadget.Contiguous)
    {front : Nat × VMValue} {rest : List (Nat × VMValue)}
    (recorded : gadget.heightMap = front :: rest) :
    front.1 = gadget.highestCommittedHeight + 1 ∧
      gadget.onCommitHotstuff (gadget.highestCommittedHeight + 1) =
        .ok (front.2,
          { gadget with
            highestCommittedHeight := gadget.highestCommittedHeight + 1
            heightMap := rest }) ∧
      { gadget with
        highestCommittedHeight := gadget.highestCommittedHeight + 1
        heightMap := rest }.Contiguous := by
  have heights := contiguous.heights
  have head := contiguous.head
  rw [recorded] at heights head
  simp only [List.map_cons, List.length_cons, List.range'_succ,
    List.cons.injEq] at heights head
  obtain ⟨first, others⟩ := heights
  refine ⟨first, ?_, ⟨others, ?_⟩⟩
  · simp [SpeculativeExecGadget.onCommitHotstuff, recorded, first]
  · simp only
    omega

end SpeculativeExecGadget

end Hotstuff
