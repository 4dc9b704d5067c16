import Hotstuff.Agreement

/-!
# Blocks on disk

`update` writes the locked block and all its ancestors to disk.  So the blocks
on disk are exactly the chains of the locks that the replica has held.  The rule
in the comment of `update`, that a block is on disk before the third vote on it,
needs more: `on_receive_proposal` votes first and moves the lock afterwards.
-/

namespace Hotstuff

section Disk

variable [WireTypes] [Externals]

/-- The block that a completed `save_block` has put on disk. -/
def Effect.savedWire : Effect → Option HotstuffBlockWire
  | .saveBlock wireBlock => some wireBlock
  | _ => none

namespace HotstuffCore

/-- The saved blocks, newest first. -/
def savedWires (core : HotstuffCore) : List HotstuffBlockWire :=
  core.trace.filterMap Effect.savedWire

omit [Externals] in
theorem mem_savedWires {core : HotstuffCore} {wireBlock : HotstuffBlockWire} :
    wireBlock ∈ core.savedWires ↔ .saveBlock wireBlock ∈ core.trace := by
  rw [savedWires, List.mem_filterMap]
  constructor
  · rintro ⟨effect, member, isSaved⟩
    cases effect with
    | saveBlock other => exact Option.some.inj isSaved ▸ member
    | _ => cases isSaved
  · exact fun member => ⟨_, member, rfl⟩

/-- A block with the hash is on disk. -/
def Saved (core : HotstuffCore) (hash : Hash) : Prop :=
  ∃ wireBlock ∈ core.savedWires, hashHeader wireBlock.header = hash

/-! ### What one event does to the disk -/

/-- The event neither moves the lock nor writes. -/
structure Idle (core after : HotstuffCore) : Prop where
  longer : core.store.Extends after.store
  bLock : after.bLock = core.bLock
  flags : ∀ q < core.store.heap.length,
    (after.block q).writtenToDisk = (core.block q).writtenToDisk
  newFlags : ∀ q, core.store.heap.length ≤ q → q < after.store.heap.length →
    (after.block q).writtenToDisk = false
  wires : after.savedWires = core.savedWires

/-- The event ends with the lock on the given block, which was written. -/
structure Wrote (core after : HotstuffCore) (lock : BlockPtr) : Prop where
  tree : core.store.SameTree after.store
  placed : core.store.Placed lock
  choice : lock = core.bLock ∨
    ∃ p, (core.block p).justifyBlockPtr = some lock
  bLock : after.bLock = lock
  flags : ∀ q, (after.block q).writtenToDisk =
    ((core.writtenLock lock).1.block q).writtenToDisk
  wires : after.savedWires = (core.writtenLock lock).2.reverse ++ core.savedWires

omit [Externals] in
theorem Idle.of_sameTree {core after : HotstuffCore}
    (tree : core.store.SameTree after.store) (bLock : after.bLock = core.bLock)
    (flags : ∀ q, (after.block q).writtenToDisk =
      (core.block q).writtenToDisk)
    (wires : after.savedWires = core.savedWires) : Idle core after :=
  ⟨tree.extends, bLock, fun q _ => flags q,
    fun _ outside inside =>
      (Nat.not_lt.mpr outside (tree.length ▸ inside)).elim,
    wires⟩

theorem savedWires_updateHqc (core : HotstuffCore) (qcBlock : BlockPtr)
    (qc : QuorumCertificate) :
    (core.updateHqc qcBlock qc).savedWires = core.savedWires := by
  rcases core.updateHqc_cases qcBlock qc with
    ⟨-, effects, silent, result⟩ | ⟨-, result⟩
  · have noWrites : effects.filterMap Effect.savedWire = [] := by
      refine List.filterMap_eq_nil_iff.mpr fun effect member => ?_
      rw [silent effect member]
      rfl
    rw [result, savedWires, List.filterMap_append, noWrites]
    rfl
  · rw [result]

omit [Externals] in
theorem savedWires_saveBlocks (core : HotstuffCore)
    (wireBlocks : List HotstuffBlockWire) :
    (((wireBlocks.map Effect.saveBlock).reverse ++ core.trace).filterMap
      Effect.savedWire) = wireBlocks.reverse ++ core.savedWires := by
  rw [List.filterMap_append, ← List.map_reverse, List.filterMap_map]
  congr 1
  exact List.filterMap_some

omit [Externals] in
theorem savedWires_commitEffects (core : HotstuffCore)
    (blocks : List BlockPtr) :
    (core.commitEffects blocks).reverse.filterMap Effect.savedWire = [] := by
  apply List.filterMap_eq_nil_iff.mpr
  intro effect member
  obtain ⟨p, -, rfl | rfl⟩ := mem_commitEffects (List.mem_reverse.mp member)
  · rfl
  · rfl

variable {collisionFree : CollisionFree}

/-- Moving the lock and writing it. -/
theorem Valid.wrote_lockAndWrite {core : HotstuffCore}
    (valid : core.Valid collisionFree) {blk2 blk1 : BlockPtr}
    (names1 : (core.block blk2).justifyBlockPtr = some blk1)
    (qc : QuorumCertificate) :
    Wrote core ((core.updateHqc blk2 qc).lockAndWrite blk1)
      (core.raisedLock blk1) := by
  have lockEq : (core.updateHqc blk2 qc).raisedLock blk1 =
      core.raisedLock blk1 := by
    simp [raisedLock]
  have storeEq : (core.updateHqc blk2 qc).writtenLock
      (core.raisedLock blk1) = core.writtenLock (core.raisedLock blk1) := by
    simp [writtenLock]
  constructor
  · have same := (core.updateHqc blk2 qc).sameTree_lockAndWrite blk1
    rwa [updateHqc_store] at same
  · rcases (core.raisedLock_cases blk1).2.2 with new | old
    · rw [new]
      exact (valid.tree.justify_stored names1).2.1
    · rw [old]
      exact valid.lockPlaced
  · rcases (core.raisedLock_cases blk1).2.2 with new | old
    · exact .inr ⟨blk2, names1.trans (congrArg some new.symm)⟩
    · exact .inl old
  · exact lockEq
  · intro q
    rw [HotstuffCore.block, HotstuffCore.lockAndWrite, lockEq, storeEq]
  · rw [savedWires, HotstuffCore.lockAndWrite, lockEq, storeEq,
      savedWires_saveBlocks, savedWires_updateHqc]

/-- `update` is idle when it does not reach the lock. -/
theorem Valid.disk_update {core : HotstuffCore}
    (valid : core.Valid collisionFree) (nblk : BlockPtr) :
    Idle core (core.update nblk) ∨ ∃ lock, Wrote core (core.update nblk) lock := by
  have outcome := update_result core nblk
  generalize core.update nblk = after at outcome ⊢
  cases outcome with
  | skip => exact .inl (.of_sameTree (.refl _) rfl (fun _ => rfl) rfl)
  | @certificate blk2 =>
      left
      refine .of_sameTree ?_ (updateHqc_bLock ..) ?_ (savedWires_updateHqc ..)
      · rw [updateHqc_store]
        exact .refl _
      · intro q
        rw [HotstuffCore.block, updateHqc_store]
        rfl
  | lock _ _ names1 => exact .inr ⟨_, valid.wrote_lockAndWrite names1 _⟩
  | fail _ _ names1 =>
      have wrote := valid.wrote_lockAndWrite names1 (core.block nblk).getJustifyQc
      exact .inr ⟨_, wrote.tree, wrote.placed, wrote.choice, wrote.bLock,
        wrote.flags, wrote.wires⟩
  | @commit blk2 blk1 blk commitQueue _ _ names1 _ _ _ _ _ walked =>
      have wrote := valid.wrote_lockAndWrite names1 (core.block nblk).getJustifyQc
      obtain ⟨chain, -, -⟩ := BlockStore.walk_cases walked
      have nodup := valid.tree.chain_nodup chain
      have bound (p : BlockPtr) (member : p ∈ commitQueue) :=
        wrote.tree.length ▸ BlockStore.WellFormed.lt_of_linked
          (chain.linked_of_mem member)
      have tree := wrote.tree.trans (sameTree_commit _ commitQueue blk
        (core.block blk1).getJustifyQc nodup bound)
      obtain ⟨_, _, result⟩ := commit_eq
        ((core.updateHqc blk2 (core.block nblk).getJustifyQc).lockAndWrite blk1)
        commitQueue blk (core.block blk1).getJustifyQc nodup bound
      rw [result] at tree ⊢
      refine .inr ⟨_, tree, wrote.placed, wrote.choice, wrote.bLock, ?_, ?_⟩
      · intro q
        rw [← wrote.flags]
        exact property_decideBlocks HotstuffBlock.writtenToDisk (fun _ => rfl) _
          _ q
      · rw [← wrote.wires, savedWires]
        dsimp only
        rw [List.filterMap_cons_none rfl, List.filterMap_cons_none rfl,
          List.filterMap_append, savedWires_commitEffects]
        rfl

theorem idle_onReceiveVote (core : HotstuffCore) (cert : PartialCertificate)
    (p : BlockPtr) (voter : ReplicaID) :
    Idle core (core.onReceiveVote cert p voter) := by
  have tree := core.sameTree_onReceiveVote cert p voter
  have flags (extended : QuorumCertificate) (q : BlockPtr) :
      ((core.withVote p extended).block q).writtenToDisk =
        (core.block q).writtenToDisk :=
    BlockStore.property_modifyBlock HotstuffBlock.writtenToDisk
      (.withSelfQc extended) (fun _ => rfl) core.store p q
  rcases core.onReceiveVote_cases cert p voter with
    ⟨message, -, result⟩ | ⟨extended, added, ⟨-, -, result⟩ | result⟩
  · rw [result] at tree ⊢
    exact .of_sameTree tree rfl (fun _ => rfl) rfl
  · rw [result] at tree ⊢
    refine .of_sameTree tree (updateHqc_bLock (core.withVote p extended) ..) ?_
      (savedWires_updateHqc (core.withVote p extended) p extended)
    intro q
    rw [← flags extended q]
    change (((core.withVote p extended).updateHqc p extended).store.block
      q).writtenToDisk = _
    rw [updateHqc_store]
    rfl
  · rw [result] at tree ⊢
    exact .of_sameTree tree rfl (flags extended) rfl

theorem Valid.idle_alloc {core : HotstuffCore}
    (valid : core.Valid collisionFree) {block : HotstuffBlock}
    (unwritten : block.writtenToDisk = false) :
    Idle core { core with store := (core.store.alloc block).1 } := by
  refine ⟨valid.tree.extends_alloc block, rfl, ?_, ?_, rfl⟩
  · intro q bound
    change ((core.store.alloc block).1.block q).writtenToDisk = _
    rw [BlockStore.block_alloc, if_neg bound.ne]
    rfl
  · intro q outside inside
    rcases BlockStore.lt_or_eq_of_alloc inside with old | rfl
    · exact (Nat.not_lt.mpr outside old).elim
    · change ((core.store.alloc block).1.block _).writtenToDisk = false
      rw [BlockStore.block_alloc, if_pos rfl]
      exact unwritten

theorem Valid.idle_insertBlock {core : HotstuffCore}
    (valid : core.Valid collisionFree) {p : BlockPtr} (notGenesis : p ≠ 0)
    (bound : p < core.store.heap.length) :
    Idle core { core with store := (core.store.insertBlock p).1 } := by
  refine ⟨(valid.tree.insertBlock notGenesis bound).2, rfl, ?_, ?_, rfl⟩
  · intro q _
    exact BlockStore.property_insertBlock HotstuffBlock.writtenToDisk
      (fun _ _ _ _ => rfl) core.store p q
  · intro q outside inside
    change q < (core.store.insertBlock p).1.heap.length at inside
    rw [BlockStore.length_insertBlock] at inside
    exact (Nat.not_lt.mpr outside inside).elim

theorem Valid.idle_proposeBody {core : HotstuffCore}
    (valid : core.Valid collisionFree) (nonemptyProposal : Bool)
    (body : Body) : Idle core (core.proposeBody nonemptyProposal body) := by
  have allocated := valid.idle_alloc
    (show (core.minted body).writtenToDisk = false from rfl)
  have inserted := (valid.alloc (valid.anchored.freshBlock_minted body)).idle_insertBlock
    valid.tree.nonempty.ne' (by simp [BlockStore.alloc])
  obtain ⟨-, longer, -⟩ := valid.anchored.mintedStore body
  rw [valid.anchored.proposeBody_eq]
  refine ⟨longer, rfl, ?_, ?_, rfl⟩
  · intro q bound
    exact (inserted.flags q (bound.trans (by simp [BlockStore.alloc]))).trans
      (allocated.flags q bound)
  · intro q outside inside
    have inside' : q < (core.store.alloc (core.minted body)).1.heap.length := by
      change q < (core.mintedStore body).1.heap.length at inside
      rwa [HotstuffCore.mintedStore, BlockStore.length_insertBlock] at inside
    exact (inserted.flags q inside').trans (allocated.newFlags q outside inside')

/-- Only a proposal can move the lock and write. -/
theorem Valid.disk_step {core : HotstuffCore}
    (valid : core.Valid collisionFree) {event : Event}
    (enabled : core.Enabled event) :
    Idle core (core.step event) ∨ ∃ lock, Wrote core (core.step event) lock := by
  cases event with
  | receiveBlock wireBlock source =>
      exact .inl (valid.idle_alloc (HotstuffBlock.property_validateHotstuff
        HotstuffBlock.writtenToDisk (fun _ _ => rfl) _ _))
  | insertBlock p =>
      exact .inl (valid.idle_insertBlock enabled.2.1 enabled.2.2)
  | vote cert p voter => exact .inl (idle_onReceiveVote core cert p voter)
  | selfVote p => exact .inl (idle_onReceiveVote core _ p _)
  | proposal p proposer =>
      have placed := valid.anchored.placed_of_height enabled.2.1
      rcases onReceiveProposal_cases valid.tree p proposer with
        ⟨-, result⟩ | ⟨-, result⟩
      · rw [HotstuffCore.step, result]
        -- The vote itself changes neither the store nor the disk.
        rcases (valid.castVote placed proposer).disk_update p with
          idle | ⟨lock, wrote⟩
        · exact .inl ⟨idle.longer, idle.bLock, idle.flags, idle.newFlags,
            idle.wires⟩
        · exact .inr ⟨lock, wrote.tree, wrote.placed, wrote.choice,
            wrote.bLock, wrote.flags, wrote.wires⟩
      · rw [HotstuffCore.step, result]
        exact valid.disk_update p
  | doPropose body => exact .inl (valid.idle_proposeBody _ body)
  | doEmptyPropose body => exact .inl (valid.idle_proposeBody _ body)
  | garbageCollect =>
      refine .inl (.of_sameTree (BlockStore.sameTree_runGc _) rfl ?_ rfl)
      refine BlockStore.property_runGc HotstuffBlock.writtenToDisk ?_ core.store
      intro block
      unfold BlockStore.flushFromMemory
      split <;> rfl

/-! ### The written blocks -/

/-- Written blocks are in the tree together with their ancestors, the lock is
one of them, and all of them except genesis have been saved. -/
structure OnDisk (core : HotstuffCore) : Prop where
  genesis : (core.block 0).writtenToDisk = true
  placed : ∀ p < core.store.heap.length,
    (core.block p).writtenToDisk = true → core.store.Placed p
  closed : core.store.WrittenClosed
  lock : (core.block core.bLock).writtenToDisk = true
  saved : ∀ p, p ≠ 0 → p < core.store.heap.length →
    (core.block p).writtenToDisk = true → core.Saved (core.store.hash p)

theorem OnDisk.init (selfId : ReplicaID) (config : ReplicaConfig)
    (secretKey : SecretKey) : (init selfId config secretKey).OnDisk where
  genesis := rfl
  placed := fun _ bound _ => .inl (Nat.lt_one_iff.mp bound)
  closed := by
    intro p parent _ edge
    have single : BlockStore.init.block p = .genesisBlock := by cases p <;> rfl
    change (BlockStore.init.block p).parentBlockPtr = _ at edge
    rw [single] at edge
    cases edge
  lock := rfl
  saved := fun _ notGenesis bound _ =>
    (notGenesis (Nat.lt_one_iff.mp bound)).elim

/-- A chain from a written block consists of written blocks. -/
theorem OnDisk.written_chain {core : HotstuffCore} (onDisk : core.OnDisk)
    {p last : BlockPtr} {passed : List BlockPtr}
    (chain : core.store.Chain p passed last)
    (written : (core.block p).writtenToDisk = true) :
    (core.block last).writtenToDisk = true := by
  induction chain with
  | here => exact written
  | up edge _ ih => exact ih (onDisk.closed _ _ written edge)

/-- All ancestors of the lock are saved. -/
theorem OnDisk.saved_ancestor {core : HotstuffCore} (onDisk : core.OnDisk)
    (valid : core.Valid collisionFree) {hash : Hash}
    (above : (headerForest collisionFree).Ancestor hash
      (core.store.hash core.bLock))
    (notGenesis : hash ≠ zeroHash) : core.Saved hash := by
  obtain ⟨q, passed, chain, rfl, -⟩ := valid.tree.stored_ancestor collisionFree
    valid.lockStored valid.lockPlaced above
  refine onDisk.saved q ?_
    (valid.tree.lt_of_placed (valid.tree.chain_placed chain valid.lockPlaced))
    (onDisk.written_chain chain onDisk.lock)
  rintro rfl
  exact notGenesis valid.tree.genesis_hash

variable {core after : HotstuffCore} (valid : core.Valid collisionFree)
  (onDisk : core.OnDisk)

include valid onDisk

theorem OnDisk.idle (idle : Idle core after) : after.OnDisk := by
  have flagged {p : BlockPtr} (bound : p < after.store.heap.length)
      (written : (after.block p).writtenToDisk = true) :
      p < core.store.heap.length ∧ (core.block p).writtenToDisk = true := by
    by_cases old : p < core.store.heap.length
    · exact ⟨old, (idle.flags p old) ▸ written⟩
    · rw [idle.newFlags p (Nat.not_lt.mp old) bound] at written
      cases written
  constructor
  · rw [idle.flags 0 valid.tree.nonempty]
    exact onDisk.genesis
  · intro p bound written
    obtain ⟨old, flag⟩ := flagged bound written
    exact idle.longer.placed (onDisk.placed p old flag)
  · intro p parent written edge
    have bound := BlockStore.WellFormed.lt_of_linked
      (show (after.block p).Linked by rw [HotstuffBlock.Linked]; simp [block, edge])
    obtain ⟨old, flag⟩ := flagged bound written
    have same : (after.store.block p).parentBlockPtr =
        (core.store.block p).parentBlockPtr :=
      congrArg HotstuffBlock.Links.parentBlockPtr
        (idle.longer.links p (onDisk.placed p old flag))
    rw [same] at edge
    have parentBound := valid.tree.lt_of_placed
      (valid.tree.parent_stored edge).2.1
    exact (idle.flags parent parentBound).trans
      (onDisk.closed p parent flag edge)
  · rw [idle.bLock,
      idle.flags _ (valid.tree.lt_of_placed valid.lockPlaced)]
    exact onDisk.lock
  · intro p notGenesis bound written
    obtain ⟨old, flag⟩ := flagged bound written
    rw [(idle.longer.identity p old).1]
    obtain ⟨wireBlock, member, hashEq⟩ := onDisk.saved p notGenesis old flag
    exact ⟨wireBlock, idle.wires ▸ member, hashEq⟩

theorem OnDisk.wrote {lock : BlockPtr} (wrote : Wrote core after lock) :
    after.OnDisk := by
  obtain ⟨closed, lockWritten⟩ := valid.tree.writtenClosed_writeToDisk
    (Nat.lt_succ_self (core.store.height lock))
    (fun q parent flag edge => .inl (onDisk.closed q parent flag edge))
  have parents (q : BlockPtr) : (after.store.block q).parentBlockPtr =
      ((core.writtenLock lock).1.block q).parentBlockPtr :=
    (congrArg HotstuffBlock.Links.parentBlockPtr (wrote.tree.links q)).trans
      (BlockStore.property_writeToDisk HotstuffBlock.parentBlockPtr
        (fun _ => rfl) _ _ _ q).symm
  constructor
  · rw [wrote.flags]
    exact BlockStore.writeToDisk_mono _ _ _ _ onDisk.genesis
  · intro p bound written
    rw [wrote.flags] at written
    rw [wrote.tree.placed]
    rcases BlockStore.written_writeToDisk written with old | ⟨-, passed, chain⟩
    · exact onDisk.placed p (wrote.tree.length ▸ bound) old
    · exact valid.tree.chain_placed chain wrote.placed
  · intro p parent written edge
    change (after.block p).writtenToDisk = true at written
    change (after.block parent).writtenToDisk = true
    rw [wrote.flags] at written ⊢
    exact closed p parent written ((parents p).symm.trans edge)
  · rw [wrote.bLock, wrote.flags]
    exact lockWritten
  · intro p notGenesis bound written
    have bound' : p < core.store.heap.length := wrote.tree.length ▸ bound
    rw [wrote.flags] at written
    rw [wrote.tree.hash, Saved, wrote.wires]
    rcases BlockStore.written_writeToDisk written with old | ⟨saved, -⟩
    · obtain ⟨wireBlock, member, hashEq⟩ :=
        onDisk.saved p notGenesis bound' old
      exact ⟨wireBlock, List.mem_append_right _ member, hashEq⟩
    · exact ⟨_, List.mem_append_left _ (List.mem_reverse.mpr saved),
        (valid.tree.hashed p notGenesis bound').1.symm⟩

theorem OnDisk.step {event : Event} (enabled : core.Enabled event) :
    (core.step event).OnDisk := by
  rcases valid.disk_step enabled with idle | ⟨lock, wrote⟩
  · exact onDisk.idle valid idle
  · exact onDisk.wrote valid wrote

omit onDisk in
/-- What is on disk after an event was there before or belongs to the chain of
the lock. -/
theorem Valid.saved_cases {event : Event} (enabled : core.Enabled event)
    (genesis : (core.block 0).writtenToDisk = true) {hash : Hash} :
    (core.step event).Saved hash → core.Saved hash ∨
      (headerForest collisionFree).Ancestor hash
        ((core.step event).store.hash (core.step event).bLock) := by
  rintro ⟨wireBlock, member, rfl⟩
  rcases valid.disk_step enabled with idle | ⟨lock, wrote⟩
  · exact .inl ⟨wireBlock, idle.wires ▸ member, rfl⟩
  · rw [wrote.wires] at member
    rcases List.mem_append.mp member with new | old
    · right
      obtain ⟨q, passed, chain, rfl, unwritten⟩ :=
        BlockStore.saved_writeToDisk (List.mem_reverse.mp new)
      have bound := valid.tree.lt_of_placed
        (valid.tree.chain_placed chain wrote.placed)
      have notGenesis : q ≠ 0 := by
        rintro rfl
        exact Bool.false_ne_true (unwritten.symm.trans genesis)
      rw [wrote.bLock, wrote.tree.hash,
        ← (valid.tree.hashed q notGenesis bound).1]
      exact valid.tree.chain_ancestor collisionFree chain
    · exact .inl ⟨wireBlock, old, rfl⟩

omit onDisk in
theorem Valid.saved_mono {event : Event} (enabled : core.Enabled event)
    {hash : Hash} (saved : core.Saved hash) :
    (core.step event).Saved hash := by
  obtain ⟨wireBlock, member, hashEq⟩ := saved
  rcases valid.disk_step enabled with idle | ⟨lock, wrote⟩
  · exact ⟨wireBlock, idle.wires ▸ member, hashEq⟩
  · exact ⟨wireBlock, wrote.wires ▸ List.mem_append_right _ member, hashEq⟩

end HotstuffCore

/-! ### The locks held so far -/

/-- The runs of one replica, together with the hashes of all locks that it has
held, newest first. -/
def lockHistorySystem (selfId : ReplicaID) (config : ReplicaConfig)
    (secretKey : SecretKey) :
    TransitionSystem (HotstuffCore × List Hash) HotstuffCore.Event where
  initial := fun state => state = (.init selfId config secretKey, [zeroHash])
  enabled := fun state event => state.1.Enabled event
  next := fun state event =>
    (state.1.step event,
      (state.1.step event).store.hash (state.1.step event).bLock :: state.2)

instance decidableLockHistoryEnabled (selfId : ReplicaID)
    (config : ReplicaConfig) (secretKey : SecretKey)
    (state : HotstuffCore × List Hash) (event : HotstuffCore.Event) :
    Decidable ((lockHistorySystem selfId config secretKey).enabled state
      event) :=
  HotstuffCore.decidableEnabled state.1 event

variable {collisionFree : CollisionFree} {selfId : ReplicaID}
  {config : ReplicaConfig} {secretKey : SecretKey}

/-- The disk holds exactly the chains of the locks held so far. -/
structure LockHistory (collisionFree : CollisionFree)
    (state : HotstuffCore × List Hash) : Prop where
  valid : state.1.Valid collisionFree
  configured : state.1.Configured
  onDisk : state.1.OnDisk
  below : ∀ lock ∈ state.2, ∀ hash,
    (headerForest collisionFree).Ancestor hash lock → hash ≠ zeroHash →
      state.1.Saved hash
  covered : ∀ hash, state.1.Saved hash →
    ∃ lock ∈ state.2, (headerForest collisionFree).Ancestor hash lock

theorem lockHistory_of_reachable (collisionFree : CollisionFree)
    (configured : (HotstuffCore.init selfId config secretKey).Configured)
    {state : HotstuffCore × List Hash}
    (reachable : (lockHistorySystem selfId config secretKey).Reachable state) :
    LockHistory collisionFree state := by
  refine reachable.invariant (LockHistory collisionFree) ?_ ?_
  · rintro state rfl
    refine ⟨.init _ _ _, configured, .init _ _ _, ?_, ?_⟩
    · intro lock member hash above notGenesis
      rw [List.mem_singleton.mp member] at above
      exact (notGenesis (ParentForest.Ancestor.eq_root above)).elim
    · rintro hash ⟨wireBlock, member, -⟩
      cases member
  · rintro ⟨core, locks⟩ event - history enabled
    have valid := history.valid.step history.configured enabled
    have onDisk := history.onDisk.step history.valid enabled
    refine ⟨valid, history.configured.step history.valid.anchored event, onDisk, ?_, ?_⟩
    · intro lock member hash above notGenesis
      rcases List.mem_cons.mp member with rfl | old
      · exact onDisk.saved_ancestor valid above notGenesis
      · exact history.valid.saved_mono enabled
          (history.below lock old hash above notGenesis)
    · intro hash saved
      rcases history.valid.saved_cases enabled history.onDisk.genesis saved with
        old | new
      · obtain ⟨lock, member, above⟩ := history.covered hash old
        exact ⟨lock, List.mem_cons_of_mem _ member, above⟩
      · exact ⟨_, List.mem_cons_self, new⟩

/-- The vote is sent before `update` is called. -/
theorem LockHistory.vote_sent {state : HotstuffCore × List Hash}
    (history : LockHistory collisionFree state) {b : BlockPtr}
    (proposer : ReplicaID) (favourable : state.1.opinion b = some true) :
    ∃ cert later, (state.1.step (.proposal b proposer)).trace =
      later ++ .doVote b cert proposer :: state.1.trace := by
  rcases HotstuffCore.onReceiveProposal_cases history.valid.tree b proposer with
    ⟨-, result⟩ | ⟨unfavourable, -⟩
  · obtain ⟨later, traceEq, -⟩ := (HotstuffCore.internal_update
      (state.1.castVote b proposer) b).trace
    rw [HotstuffCore.step, result]
    exact ⟨_, later, traceEq⟩
  · rw [favourable] at unfavourable
    cases unfavourable

/-- A favourable opinion leads to a vote, and when it is the third one on a
block, the block and all its ancestors are on disk at that moment exactly if the
replica has already been locked on the block or on one of its descendants. -/
theorem third_vote_durable_iff (collisionFree : CollisionFree)
    (configured : (HotstuffCore.init selfId config secretKey).Configured)
    {core : HotstuffCore} {locks : List Hash}
    (reachable : (lockHistorySystem selfId config secretKey).Reachable
      (core, locks))
    {b blk1 : BlockPtr} (proposer : ReplicaID)
    (favourable : core.opinion b = some true)
    (third : ((core.block b).justifyBlockPtr.bind fun blk2 =>
      (core.block blk2).justifyBlockPtr) = some blk1)
    (notGenesis : blk1 ≠ 0) :
    (∃ cert later, (core.step (.proposal b proposer)).trace =
      later ++ .doVote b cert proposer :: core.trace) ∧
    ((∀ hash, (headerForest collisionFree).Ancestor hash
        (core.store.hash blk1) → hash ≠ zeroHash → core.Saved hash) ↔
      ∃ lock ∈ locks, (headerForest collisionFree).Ancestor
        (core.store.hash blk1) lock) := by
  have history := lockHistory_of_reachable collisionFree configured reachable
  have tree := history.valid.tree
  obtain ⟨blk2, -, names1⟩ := Option.bind_eq_some_iff.mp third
  refine ⟨history.vote_sent proposer favourable, ?_, ?_⟩
  · intro durable
    refine history.covered _ (durable _ (.refl _) fun zero => notGenesis ?_)
    have stored := (tree.justify_stored names1).1
    exact BlockStore.WellFormed.stored_unique stored tree.genesis_stored
      (zero.trans tree.genesis_hash.symm)
  · rintro ⟨lock, member, above⟩ hash below
    exact history.below lock member hash (below.trans above)

end Disk

/-! ### Third votes of one replica -/

namespace Symbolic.ThirdVote

open scoped Symbolic
open Fork

/-- The replica receives the block as its block number `p`. -/
def receive (wireBlock : HotstuffBlockWire) (p : BlockPtr) :
    List HotstuffCore.Event :=
  [.receiveBlock wireBlock 3, .insertBlock p]

/-- Replica `0` has voted for `b1` and `b2` and received `b3`. -/
def beforeThird : List HotstuffCore.Event :=
  receive b1 1 ++ [.proposal 1 3] ++ receive b2 2 ++ [.proposal 2 3] ++
    receive b3 3

/-- It votes for `b3` and receives another block that certifies `b2`. -/
def beforeFourth : List HotstuffCore.Event :=
  beforeThird ++ [.proposal 3 3] ++
    receive (blockOn (hashHeader b3.header)
      (certificateOn (hashHeader b2.header)) [5]) 4

def system : TransitionSystem (HotstuffCore × List Hash) HotstuffCore.Event :=
  lockHistorySystem 0 fourReplicas (0 : Nat)

instance decidableEnabled (state : HotstuffCore × List Hash)
    (event : HotstuffCore.Event) : Decidable (system.enabled state event) :=
  decidableLockHistoryEnabled 0 fourReplicas (0 : Nat) state event

def start : HotstuffCore × List Hash :=
  (.init 0 fourReplicas (0 : Nat), [zeroHash])

theorem reachable_third : system.Reachable (system.run start beforeThird) := by
  refine .run (.initial rfl) ?_
  decide +kernel

theorem reachable_fourth :
    system.Reachable (system.run start beforeFourth) := by
  refine .run (.initial rfl) ?_
  decide +kernel

end Symbolic.ThirdVote

open scoped Symbolic in
open Symbolic Symbolic.ThirdVote in
/-- A third vote on a block on which the replica is locked. -/
theorem third_vote_after_lock :
    ∃ core locks, system.Reachable (core, locks) ∧
      core.opinion 4 = some true ∧ core.store.hash 1 ∈ locks ∧
      core.Saved (core.store.hash 1) := by
  have favourable : (system.run start beforeFourth).1.opinion 4 = some true := by
    decide +kernel
  have locked : (system.run start beforeFourth).1.store.hash 1 ∈
      (system.run start beforeFourth).2 := by
    decide +kernel
  obtain ⟨-, durable⟩ := third_vote_durable_iff collisionFree
    (init_configured 0 (by decide)) reachable_fourth 3 favourable
    (show _ = some 1 by decide +kernel) (by decide)
  refine ⟨_, _, reachable_fourth, favourable, locked, ?_⟩
  exact durable.mpr ⟨_, locked, .refl _⟩ _ (.refl _) (by decide +kernel)

open scoped Symbolic in
open Symbolic Symbolic.ThirdVote in
/-- On a plain chain of three blocks, the third vote on the first block is sent
before anything is saved. -/
theorem third_vote_before_write :
    ∃ core locks, system.Reachable (core, locks) ∧
      core.Enabled (.proposal 3 3) ∧
      ((core.block 3).justifyBlockPtr.bind fun blk2 =>
        (core.block blk2).justifyBlockPtr) = some 1 ∧
      core.opinion 3 = some true ∧
      (∃ cert later, (core.step (.proposal 3 3)).trace =
        later ++ .doVote 3 cert 3 :: core.trace) ∧
      ¬ core.Saved (core.store.hash 1) := by
  have history := lockHistory_of_reachable collisionFree
    (init_configured 0 (by decide)) reachable_third
  have favourable : (system.run start beforeThird).1.opinion 3 = some true := by
    decide +kernel
  have nothingSaved : (system.run start beforeThird).1.savedWires = [] := by
    decide +kernel
  have notSaved (hash : Hash) :
      ¬ (system.run start beforeThird).1.Saved hash := by
    rintro ⟨wireBlock, member, -⟩
    rw [nothingSaved] at member
    cases member
  exact ⟨_, _, reachable_third, by decide +kernel, by decide +kernel,
    favourable, history.vote_sent 3 favourable, notSaved _⟩

end Hotstuff
