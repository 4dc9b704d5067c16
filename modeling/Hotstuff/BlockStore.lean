import Hotstuff.Block

/-!
# The block store

`BlockStore` keeps one block object per hash.  Inserting a block looks up its
parent and justify blocks, sets the links and the height, and hands the block
to the garbage collector, which clears the bodies of old blocks.

`WellFormed` collects what all sequences of these operations establish: every
stored block is keyed by its hash and linked to stored blocks, one level below
its parent.
-/

namespace Hotstuff

variable [WireTypes]

/-- The heap of block objects, the hash index over it and the lists of the
garbage collector. -/
structure BlockStore where
  heap : List HotstuffBlock
  blockCache : List (Hash × BlockPtr)
  gcListBuffer : List BlockPtr
  gcList : List BlockPtr
  hotstuffHeightToGc : Option Nat

namespace BlockStore

/-- The store of a starting replica, with the genesis block at index zero. -/
def init : BlockStore where
  heap := [.genesisBlock]
  blockCache := [(zeroHash, 0)]
  gcListBuffer := []
  gcList := []
  hotstuffHeightToGc := none

/-- The object behind a pointer. -/
def block (store : BlockStore) (p : BlockPtr) : HotstuffBlock :=
  store.heap.getD p .genesisBlock

def height (store : BlockStore) (p : BlockPtr) : Nat :=
  (store.block p).blockHeight

def hash (store : BlockStore) (p : BlockPtr) : Hash :=
  (store.block p).getHash

def modifyBlock (store : BlockStore) (p : BlockPtr)
    (change : HotstuffBlock → HotstuffBlock) : BlockStore :=
  { store with heap := store.heap.modify p change }

/-- Allocate a block object. -/
def alloc (store : BlockStore) (block : HotstuffBlock) :
    BlockStore × BlockPtr :=
  ({ store with heap := store.heap ++ [block] }, store.heap.length)

def getBlock (store : BlockStore) (hash : Hash) : Option BlockPtr :=
  store.blockCache.lookup hash

structure MissingDependencies where
  parentHash : Option Hash
  justifyHash : Option Hash

/-- `operator bool`: true when the insertion failed. -/
def MissingDependencies.any (missing : MissingDependencies) : Bool :=
  missing.parentHash.isSome || missing.justifyHash.isSome

/-- `set_parent` and `set_justify` -/
def link (store : BlockStore) (p parent justify : BlockPtr) : BlockStore :=
  store.modifyBlock p fun block =>
    { block with
      parentBlockPtr := some parent
      blockHeight := store.height parent + 1
      justifyBlockPtr := some justify }

/-- `block_cache.emplace`, which keeps an entry that is already there. -/
def emplace (store : BlockStore) (hash : Hash) (p : BlockPtr) : BlockStore :=
  if (store.getBlock hash).isSome then store
  else { store with blockCache := (hash, p) :: store.blockCache }

/-- The end of `insert_block`, when both dependencies are there. -/
def addLinked (store : BlockStore) (p parent justify : BlockPtr) : BlockStore :=
  let cached := (store.link p parent justify).emplace (store.hash p) p
  { cached with gcListBuffer := cached.gcListBuffer ++ [p] }

def insertBlock (store : BlockStore) (p : BlockPtr) :
    BlockStore × MissingDependencies :=
  let block := store.block p
  match store.getBlock block.getParentHash,
      store.getBlock block.getJustifyHash with
  | some parent, some justify =>
      (store.addLinked p parent justify,
        { parentHash := none, justifyHash := none })
  | parent, justify =>
      (store,
        { parentHash := if parent.isNone then some block.getParentHash else none
          justifyHash :=
            if justify.isNone then some block.getJustifyHash else none })

/-! ### Garbage collection -/

def flushFromMemory (block : HotstuffBlock) : HotstuffBlock :=
  if block.flushedFromMemory then block
  else
    { block with
      flushedFromMemory := true
      wireBlock := { block.wireBlock with body := [] } }

/-- The loop of `do_gc` at index `iter`: a flushed entry is replaced by the
last one, and the index stays.  Every round shortens the part of the list that
is still ahead, so its length bounds the number of rounds. -/
def gcLoop (hotstuffHeight : Nat) : Nat → Nat → BlockStore → BlockStore
  | 0, _, store => store
  | rounds + 1, iter, store =>
      match store.gcList[iter]? with
      | none => store
      | some p =>
          if store.height p < hotstuffHeight then
            let flushed := store.modifyBlock p flushFromMemory
            gcLoop hotstuffHeight rounds iter
              { flushed with
                gcList := (store.gcList.set iter
                  (store.gcList.getLastD p)).dropLast }
          else
            gcLoop hotstuffHeight rounds (iter + 1) store

/-- One round of the collector thread. -/
def runGc (store : BlockStore) : BlockStore :=
  match store.hotstuffHeightToGc with
  | none => store
  | some hotstuffHeight =>
      let pushed :=
        { store with
          gcList := store.gcList ++ store.gcListBuffer
          gcListBuffer := []
          hotstuffHeightToGc := none }
      gcLoop hotstuffHeight pushed.gcList.length 0 pushed

/-- `prune_below_height`, which wakes the collector. -/
def pruneBelowHeight (store : BlockStore) (pruneHeight : Nat) : BlockStore :=
  { store with hotstuffHeightToGc := some pruneHeight }

/-! ### Walking along parents -/

/-- Follow parents from `p` while the height is above `bound`; the result is
the list of blocks passed and the block at which the walk ends.  Heights drop
by one from a block to its parent, so the height of `p` bounds the number of
steps.  A null pointer ends the walk without result. -/
def walk (store : BlockStore) (bound : Nat) :
    Nat → BlockPtr → Option (List BlockPtr × BlockPtr)
  | steps, p =>
      if bound < store.height p then
        match steps, (store.block p).parentBlockPtr with
        | steps + 1, some parent =>
            (walk store bound steps parent).map fun (passed, last) =>
              (p :: passed, last)
        | _, _ => none
      else some ([], p)

/-- `write_to_disk`: set the flag, save the block and go on with the parent,
until a block that has the flag already.  Returned are the saved wire blocks,
first one first. -/
def writeToDisk : Nat → BlockStore → BlockPtr →
    BlockStore × List HotstuffBlockWire
  | 0, store, _ => (store, [])
  | steps + 1, store, p =>
      if (store.block p).writtenToDisk then (store, [])
      else
        let marked := store.modifyBlock p .markWritten
        match (store.block p).parentBlockPtr with
        | none => (marked, [(store.block p).wireBlock])
        | some parent =>
            let rest := writeToDisk steps marked parent
            (rest.1, (store.block p).wireBlock :: rest.2)

/-- Does the block support a nonempty child, looking `depth` blocks up? -/
def supportsNonemptyChildProposal (store : BlockStore) (selfId : ReplicaID) :
    Nat → BlockPtr → Bool
  | 0, _ => true
  | depth + 1, p =>
      let block := store.block p
      if selfId ≠ block.proposer then false
      else if block.justifyBlockPtr.isNone then false
      else
        match block.parentBlockPtr with
        | none => false
        | some parent =>
            if block.getJustifyHash ≠ block.getParentHash then false
            else supportsNonemptyChildProposal store selfId depth parent

/-! ### Reading modified stores -/

theorem block_modifyBlock (store : BlockStore) (p q : BlockPtr)
    (change : HotstuffBlock → HotstuffBlock) :
    (store.modifyBlock p change).block q =
      if p = q ∧ q < store.heap.length then change (store.block q)
      else store.block q := by
  unfold block modifyBlock
  simp only [List.getD_eq_getElem?_getD, List.getElem?_modify]
  by_cases bound : q < store.heap.length
  · by_cases same : p = q
    · simp [same, bound]
    · simp [same]
  · simp [bound]

/-- A property of block objects that a change does not affect is the same in
the modified store. -/
theorem property_modifyBlock {Property : Type*}
    (property : HotstuffBlock → Property)
    (change : HotstuffBlock → HotstuffBlock)
    (kept : ∀ block, property (change block) = property block)
    (store : BlockStore) (p q : BlockPtr) :
    property ((store.modifyBlock p change).block q) =
      property (store.block q) := by
  rw [block_modifyBlock]
  split
  · exact kept _
  · rfl

@[simp]
theorem length_modifyBlock (store : BlockStore) (p : BlockPtr)
    (change : HotstuffBlock → HotstuffBlock) :
    (store.modifyBlock p change).heap.length = store.heap.length := by
  simp [modifyBlock]

theorem block_of_length_le {store : BlockStore} {p : BlockPtr}
    (outside : store.heap.length ≤ p) : store.block p = .genesisBlock := by
  simp [block, List.getD_eq_getElem?_getD, outside]

theorem lt_or_eq_of_alloc {store : BlockStore} {block : HotstuffBlock}
    {p : BlockPtr} (inside : p < (store.alloc block).1.heap.length) :
    p < store.heap.length ∨ p = store.heap.length := by
  rw [alloc, List.length_append] at inside
  exact Nat.lt_or_eq_of_le (Nat.le_of_lt_succ inside)

theorem lt_of_alloc {store : BlockStore} {block : HotstuffBlock}
    {p : BlockPtr} (inside : p < (store.alloc block).1.heap.length)
    (old : p ≠ store.heap.length) : p < store.heap.length :=
  (lt_or_eq_of_alloc inside).resolve_right old

theorem block_alloc (store : BlockStore) (block : HotstuffBlock)
    (q : BlockPtr) :
    (store.alloc block).1.block q =
      if q = store.heap.length then block else store.block q := by
  unfold alloc BlockStore.block
  simp only [List.getD_eq_getElem?_getD, List.getElem?_append]
  rcases Nat.lt_trichotomy q store.heap.length with below | same | above
  · simp [below, below.ne]
  · simp [same]
  · have outside : [block].length ≤ q - store.heap.length :=
      Nat.sub_pos_of_lt above
    simp [above.le.not_gt, above.ne',
      List.getElem?_eq_none outside]

theorem getBlock_emplace (store : BlockStore) (hash other : Hash)
    (p : BlockPtr) :
    (store.emplace hash p).getBlock other =
      if other = hash ∧ store.getBlock hash = none then some p
      else store.getBlock other := by
  unfold emplace
  cases found : store.getBlock hash with
  | some q => simp
  | none =>
      simp only [Option.isSome_none, Bool.false_eq_true, if_false, getBlock,
        List.lookup_cons, and_true]
      by_cases same : other = hash
      · simp [same]
      · rw [if_neg same, beq_eq_false_iff_ne.mpr same]

@[simp]
theorem block_emplace (store : BlockStore) (hash : Hash) (p q : BlockPtr) :
    (store.emplace hash p).block q = store.block q := by
  unfold emplace
  split <;> rfl

@[simp]
theorem length_emplace (store : BlockStore) (hash : Hash) (p : BlockPtr) :
    (store.emplace hash p).heap.length = store.heap.length := by
  unfold emplace
  split <;> rfl

theorem block_addLinked (store : BlockStore) (p parent justify q : BlockPtr) :
    (store.addLinked p parent justify).block q =
      if p = q ∧ q < store.heap.length then
        { store.block q with
          parentBlockPtr := some parent
          blockHeight := store.height parent + 1
          justifyBlockPtr := some justify }
      else store.block q :=
  (block_emplace _ _ p q).trans (block_modifyBlock store p q _)

theorem block_addLinked_self {store : BlockStore} {p : BlockPtr}
    (bound : p < store.heap.length) (parent justify : BlockPtr) :
    (store.addLinked p parent justify).block p =
      { store.block p with
        parentBlockPtr := some parent
        blockHeight := store.height parent + 1
        justifyBlockPtr := some justify } := by
  rw [block_addLinked, if_pos ⟨rfl, bound⟩]

theorem block_addLinked_of_ne {store : BlockStore} {p q : BlockPtr}
    (different : p ≠ q) (parent justify : BlockPtr) :
    (store.addLinked p parent justify).block q = store.block q := by
  rw [block_addLinked, if_neg fun both => different both.1]

/-- Linking a block only changes its pointers and its height. -/
theorem property_addLinked {Property : Type*}
    (property : HotstuffBlock → Property)
    (kept : ∀ (block : HotstuffBlock) (parent justify : BlockPtr)
      (height : Nat), property
        { block with
          parentBlockPtr := some parent
          blockHeight := height
          justifyBlockPtr := some justify } = property block)
    (store : BlockStore) (p parent justify q : BlockPtr) :
    property ((store.addLinked p parent justify).block q) =
      property (store.block q) := by
  rw [block_addLinked]
  split
  · exact kept _ _ _ _
  · rfl

@[simp]
theorem length_addLinked (store : BlockStore) (p parent justify : BlockPtr) :
    (store.addLinked p parent justify).heap.length = store.heap.length :=
  (length_emplace _ _ p).trans (length_modifyBlock store p _)

theorem getBlock_addLinked (store : BlockStore) (p parent justify : BlockPtr)
    (hash : Hash) :
    (store.addLinked p parent justify).getBlock hash =
      if hash = store.hash p ∧ store.getBlock (store.hash p) = none then some p
      else store.getBlock hash :=
  getBlock_emplace (store.link p parent justify) (store.hash p) hash p

/-- An insertion links the block when both dependencies are stored, and
otherwise reports a missing one and changes nothing. -/
theorem insertBlock_cases (store : BlockStore) (p : BlockPtr) :
    (∃ parent justify,
      store.getBlock (store.block p).getParentHash = some parent ∧
      store.getBlock (store.block p).getJustifyHash = some justify ∧
      (store.insertBlock p).1 = store.addLinked p parent justify ∧
      (store.insertBlock p).2.any = false) ∨
    ((store.getBlock (store.block p).getParentHash = none ∨
        store.getBlock (store.block p).getJustifyHash = none) ∧
      (store.insertBlock p).1 = store ∧
      (store.insertBlock p).2.any = true) := by
  dsimp only [insertBlock]
  cases parentFound : store.getBlock (store.block p).getParentHash with
  | none => exact .inr ⟨.inl rfl, rfl, rfl⟩
  | some parent =>
      cases justifyFound : store.getBlock (store.block p).getJustifyHash with
      | none => exact .inr ⟨.inr rfl, rfl, rfl⟩
      | some justify => exact .inl ⟨parent, justify, rfl, rfl, rfl, rfl⟩

theorem length_insertBlock (store : BlockStore) (p : BlockPtr) :
    (store.insertBlock p).1.heap.length = store.heap.length := by
  rcases insertBlock_cases store p with
    ⟨parent, justify, -, -, result, -⟩ | ⟨-, result, -⟩
  · rw [result, length_addLinked]
  · rw [result]

/-- Inserting only changes the links of blocks. -/
theorem property_insertBlock {Property : Type*}
    (property : HotstuffBlock → Property)
    (kept : ∀ (block : HotstuffBlock) (parent justify : BlockPtr)
      (height : Nat), property
        { block with
          parentBlockPtr := some parent
          blockHeight := height
          justifyBlockPtr := some justify } = property block)
    (store : BlockStore) (p q : BlockPtr) :
    property ((store.insertBlock p).1.block q) = property (store.block q) := by
  rcases insertBlock_cases store p with
    ⟨parent, justify, -, -, result, -⟩ | ⟨-, result, -⟩
  · rw [result]
    exact property_addLinked property kept store p parent justify q
  · rw [result]

end BlockStore

end Hotstuff
