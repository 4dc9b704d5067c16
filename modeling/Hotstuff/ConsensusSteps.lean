import Hotstuff.Consensus
import Hotstuff.ParentChain

/-!
# What the consensus functions do

One case analysis per function of the consensus core.  Later files use these
descriptions and never unfold the functions again.
-/

namespace Hotstuff

variable [WireTypes]

namespace HotstuffCore

/-! ### Locks -/

/-- The lock after `update` has seen `blk1`. -/
def raisedLock (core : HotstuffCore) (blk1 : BlockPtr) : BlockPtr :=
  if core.store.height core.bLock < core.store.height blk1 then blk1
  else core.bLock

theorem raiseLock_eq (core : HotstuffCore) (blk1 : BlockPtr) :
    core.raiseLock blk1 = { core with bLock := core.raisedLock blk1 } := by
  unfold raiseLock raisedLock
  split <;> rfl

theorem raisedLock_cases (core : HotstuffCore) (blk1 : BlockPtr) :
    core.store.height core.bLock ≤ core.store.height (core.raisedLock blk1) ∧
      core.store.height blk1 ≤ core.store.height (core.raisedLock blk1) ∧
      (core.raisedLock blk1 = blk1 ∨
        core.raisedLock blk1 = core.bLock) := by
  unfold raisedLock
  split
  · rename_i higher
    exact ⟨higher.le, Nat.le_refl _, .inl rfl⟩
  · rename_i notHigher
    exact ⟨Nat.le_refl _, Nat.le_of_not_lt notHigher, .inr rfl⟩

/-- The store and the saved blocks after the lock was written. -/
def writtenLock (core : HotstuffCore) (lock : BlockPtr) :
    BlockStore × List HotstuffBlockWire :=
  BlockStore.writeToDisk (core.store.height lock + 1) core.store lock

/-- The state after the middle part of `update`. -/
def lockAndWrite (core : HotstuffCore) (blk1 : BlockPtr) : HotstuffCore :=
  { core with
    bLock := core.raisedLock blk1
    store := (core.writtenLock (core.raisedLock blk1)).1
    trace := ((core.writtenLock (core.raisedLock blk1)).2.map
      .saveBlock).reverse ++ core.trace }

theorem writeLock_raiseLock (core : HotstuffCore) (blk1 : BlockPtr) :
    (core.raiseLock blk1).writeLock = core.lockAndWrite blk1 := by
  rw [raiseLock_eq]
  rfl

theorem sameTree_lockAndWrite (core : HotstuffCore) (blk1 : BlockPtr) :
    core.store.SameTree (core.lockAndWrite blk1).store :=
  BlockStore.sameTree_writeToDisk _ _ _

/-- Only the written flags differ after `lockAndWrite`. -/
theorem property_lockAndWrite {Property : Type*}
    (property : HotstuffBlock → Property)
    (kept : ∀ block, property (.markWritten block) = property block)
    (core : HotstuffCore) (blk1 p : BlockPtr) :
    property ((core.lockAndWrite blk1).store.block p) =
      property (core.store.block p) :=
  BlockStore.property_writeToDisk property kept _ _ _ _

/-! ### Committing -/

/-- The effects of committing the blocks, oldest first. -/
def commitEffects (core : HotstuffCore) (blocks : List BlockPtr) :
    List Effect :=
  blocks.flatMap fun p =>
    [.applyBlock (core.block p).markDecided,
      .notifyVmOfCommitment (core.block p).markDecided]

theorem mem_commitEffects {core : HotstuffCore} {blocks : List BlockPtr}
    {effect : Effect} (member : effect ∈ core.commitEffects blocks) :
    ∃ p ∈ blocks, effect = .applyBlock (core.block p).markDecided ∨
      effect = .notifyVmOfCommitment (core.block p).markDecided := by
  obtain ⟨p, queued, isEffect⟩ := List.mem_flatMap.mp member
  exact ⟨p, queued, by simpa using isEffect⟩

def decideBlocks (store : BlockStore) (blocks : List BlockPtr) : BlockStore :=
  blocks.foldl (fun store p => store.modifyBlock p .markDecided) store

theorem property_decideBlocks {Property : Type*}
    (property : HotstuffBlock → Property)
    (kept : ∀ block, property (.markDecided block) = property block)
    (store : BlockStore) (blocks : List BlockPtr) (q : BlockPtr) :
    property ((decideBlocks store blocks).block q) =
      property (store.block q) := by
  induction blocks generalizing store with
  | nil => rfl
  | cons p blocks ih =>
      exact (ih _).trans
        (BlockStore.property_modifyBlock property _ kept store p q)

theorem sameTree_decideBlocks (store : BlockStore) (blocks : List BlockPtr) :
    store.SameTree (decideBlocks store blocks) := by
  induction blocks generalizing store with
  | nil => exact .refl store
  | cons p blocks ih =>
      have first : store.SameTree (store.modifyBlock p .markDecided) :=
        BlockStore.sameTree_modifyBlock store p fun _ => rfl
      exact first.trans (ih _)

theorem decided_decideBlocks (store : BlockStore) (blocks : List BlockPtr)
    (q : BlockPtr) (bound : q < store.heap.length) :
    ((decideBlocks store blocks).block q).decided = true ↔
      (store.block q).decided = true ∨ q ∈ blocks := by
  induction blocks generalizing store with
  | nil => simp [decideBlocks]
  | cons p blocks ih =>
      have step := ih (store.modifyBlock p .markDecided) (by simpa using bound)
      rw [show decideBlocks store (p :: blocks) =
        decideBlocks (store.modifyBlock p .markDecided) blocks from rfl, step,
        BlockStore.block_modifyBlock]
      by_cases same : p = q
      · subst same
        simp [bound, HotstuffBlock.markDecided]
      · simp [same, Ne.symm same]

theorem foldl_commitBlock (core : HotstuffCore) (blocks : List BlockPtr)
    (nodup : blocks.Nodup) (bound : ∀ p ∈ blocks, p < core.store.heap.length) :
    blocks.foldl commitBlock core =
      { core with
        store := decideBlocks core.store blocks
        trace := (core.commitEffects blocks).reverse ++ core.trace } := by
  induction blocks generalizing core with
  | nil => rfl
  | cons p blocks ih =>
      obtain ⟨fresh, nodup⟩ := List.nodup_cons.mp nodup
      have marked : (core.store.modifyBlock p .markDecided).block p =
          (core.store.block p).markDecided := by
        rw [BlockStore.block_modifyBlock, if_pos ⟨rfl, bound p (by simp)⟩]
      have others (q : BlockPtr) (member : q ∈ blocks) :
          (core.store.modifyBlock p .markDecided).block q =
            core.store.block q := by
        rw [BlockStore.block_modifyBlock, if_neg]
        rintro ⟨rfl, -⟩
        exact fresh member
      have effects : (core.commitBlock p).commitEffects blocks =
          core.commitEffects blocks := by
        unfold commitEffects
        refine List.flatMap_congr fun q member => ?_
        have same : (core.commitBlock p).block q = core.block q :=
          others q member
        rw [same]
      rw [List.foldl_cons, ih _ nodup
        (fun q member => by
          simpa [commitBlock, emit] using
            bound q (List.mem_cons_of_mem _ member)), effects]
      simp [commitBlock, emit, commitEffects, block, marked, decideBlocks]

/-- What no decision of a block changes is the same after all of them. -/
theorem property_foldl_commitBlock {Property : Type*}
    (property : HotstuffCore → Property)
    (kept : ∀ core p, property (commitBlock core p) = property core)
    (core : HotstuffCore) (blocks : List BlockPtr) :
    property (blocks.foldl commitBlock core) = property core := by
  induction blocks generalizing core with
  | nil => rfl
  | cons p blocks ih => exact (ih _).trans (kept core p)

variable [Externals]

/-- `commit` decides the queue, oldest block first, and then writes one index
transaction. -/
theorem commit_eq (core : HotstuffCore) (commitQueue : List BlockPtr)
    (blk : BlockPtr) (qc : QuorumCertificate) (nodup : commitQueue.Nodup)
    (bound : ∀ p ∈ commitQueue, p < core.store.heap.length) :
    ∃ pruneHeight committedHeight,
      core.commit commitQueue blk qc =
        { core with
          store := (decideBlocks core.store commitQueue.reverse).pruneBelowHeight
            pruneHeight
          bExec := blk
          trace := .notifyOkToPruneBlocks committedHeight ::
            .commitTxn (commitQueue.reverse.map fun p =>
              (core.store.height p, core.store.hash p)) qc.serialize ::
            ((core.commitEffects commitQueue.reverse).reverse ++
              core.trace) } := by
  unfold commit
  rw [foldl_commitBlock core commitQueue.reverse
    (List.nodup_reverse.mpr nodup) fun p member =>
      bound p (List.mem_reverse.mp member)]
  exact ⟨_, _, rfl⟩

theorem sameTree_commit (core : HotstuffCore) (commitQueue : List BlockPtr)
    (blk : BlockPtr) (qc : QuorumCertificate) (nodup : commitQueue.Nodup)
    (bound : ∀ p ∈ commitQueue, p < core.store.heap.length) :
    core.store.SameTree (core.commit commitQueue blk qc).store := by
  obtain ⟨_, _, result⟩ := core.commit_eq commitQueue blk qc nodup bound
  rw [result]
  exact (sameTree_decideBlocks core.store commitQueue.reverse).trans
    ⟨rfl, rfl, fun _ => rfl⟩

/-- A commit adds the hash that its certificate is on. -/
theorem committedHeads_commit (core : HotstuffCore)
    (commitQueue : List BlockPtr) (blk : BlockPtr) (qc : QuorumCertificate)
    (nodup : commitQueue.Nodup)
    (bound : ∀ p ∈ commitQueue, p < core.store.heap.length) :
    (core.commit commitQueue blk qc).committedHeads =
      qc.objHash :: core.committedHeads := by
  obtain ⟨_, _, result⟩ := core.commit_eq commitQueue blk qc nodup bound
  have noHeads : (core.commitEffects commitQueue.reverse).reverse.filterMap
      Effect.committedHead = [] := by
    apply List.filterMap_eq_nil_iff.mpr
    intro effect member
    obtain ⟨p, -, rfl | rfl⟩ := mem_commitEffects (List.mem_reverse.mp member)
    · rfl
    · rfl
  rw [result, committedHeads, committedHeads]
  simp only [List.filterMap_cons, List.filterMap_append, noHeads,
    Effect.committedHead, List.nil_append]
  rfl

/-! ### Certificates -/

/-- `update_hqc` replaces the certificate and the leaf by those of a higher
block, and otherwise does nothing. -/
theorem updateHqc_cases (core : HotstuffCore) (qcBlock : BlockPtr)
    (qc : QuorumCertificate) :
    (core.store.height core.hqc.1 < core.store.height qcBlock ∧
      ∃ effects,
        (∀ effect ∈ effects, effect = .notifyVmOfQcOnNonselfBlock qcBlock) ∧
        core.updateHqc qcBlock qc =
          { core with
            hqc := (qcBlock, qc.serialize)
            bLeaf := qcBlock
            trace := effects ++ core.trace }) ∨
    (core.store.height qcBlock ≤ core.store.height core.hqc.1 ∧
      core.updateHqc qcBlock qc = core) := by
  unfold updateHqc
  split
  · rename_i higher
    refine .inl ⟨higher, ?_⟩
    dsimp only
    split
    · exact ⟨[.notifyVmOfQcOnNonselfBlock qcBlock], by simp, rfl⟩
    · exact ⟨[], by simp, rfl⟩
  · rename_i notHigher
    exact .inr ⟨Nat.le_of_not_lt notHigher, rfl⟩

section Frame

variable (core : HotstuffCore) (qcBlock : BlockPtr) (qc : QuorumCertificate)

@[simp]
theorem updateHqc_store : (core.updateHqc qcBlock qc).store = core.store := by
  rcases updateHqc_cases core qcBlock qc with ⟨-, _, -, result⟩ | ⟨-, result⟩ <;>
    rw [result]

@[simp]
theorem updateHqc_bLock : (core.updateHqc qcBlock qc).bLock = core.bLock := by
  rcases updateHqc_cases core qcBlock qc with ⟨-, _, -, result⟩ | ⟨-, result⟩ <;>
    rw [result]

@[simp]
theorem updateHqc_bExec : (core.updateHqc qcBlock qc).bExec = core.bExec := by
  rcases updateHqc_cases core qcBlock qc with ⟨-, _, -, result⟩ | ⟨-, result⟩ <;>
    rw [result]

@[simp]
theorem updateHqc_vheight :
    (core.updateHqc qcBlock qc).vheight = core.vheight := by
  rcases updateHqc_cases core qcBlock qc with ⟨-, _, -, result⟩ | ⟨-, result⟩ <;>
    rw [result]

end Frame

/-! ### The update function -/

/-- The possible results of `update`.  In the order of the cases: the first
justify block is missing or decided; the second one is; no chain of three
direct parents starts at the third one; the commit loop does not end at the last
executed block; the queue is committed. -/
inductive UpdateResult (core : HotstuffCore) (nblk : BlockPtr) :
    HotstuffCore → Prop
  | skip
      (reason : ∀ blk2, (core.block nblk).justifyBlockPtr = some blk2 →
        (core.block blk2).decided = true) :
      UpdateResult core nblk core
  | certificate {blk2 : BlockPtr}
      (names2 : (core.block nblk).justifyBlockPtr = some blk2)
      (open2 : (core.block blk2).decided = false)
      (reason : ∀ blk1, (core.block blk2).justifyBlockPtr = some blk1 →
        (core.block blk1).decided = true) :
      UpdateResult core nblk
        (core.updateHqc blk2 (core.block nblk).getJustifyQc)
  | lock {blk2 blk1 : BlockPtr}
      (names2 : (core.block nblk).justifyBlockPtr = some blk2)
      (open2 : (core.block blk2).decided = false)
      (names1 : (core.block blk2).justifyBlockPtr = some blk1)
      (open1 : (core.block blk1).decided = false) :
      UpdateResult core nblk
        ((core.updateHqc blk2 (core.block nblk).getJustifyQc).lockAndWrite blk1)
  | fail {blk2 blk1 blk : BlockPtr} {failure : Failure}
      (names2 : (core.block nblk).justifyBlockPtr = some blk2)
      (open2 : (core.block blk2).decided = false)
      (names1 : (core.block blk2).justifyBlockPtr = some blk1)
      (open1 : (core.block blk1).decided = false)
      (names : (core.block blk1).justifyBlockPtr = some blk)
      (open0 : (core.block blk).decided = false)
      (parent2 : (core.block blk2).parentBlockPtr = some blk1)
      (parent1 : (core.block blk1).parentBlockPtr = some blk)
      (reason :
        (failure = .nullPointer ∧
          core.store.walk (core.store.height core.bExec)
            (core.store.height blk) blk = none) ∨
        (failure = .safetyBreached ∧ ∃ commitQueue last,
          core.store.walk (core.store.height core.bExec)
            (core.store.height blk) blk = some (commitQueue, last) ∧
          last ≠ core.bExec)) :
      UpdateResult core nblk
        (((core.updateHqc blk2 (core.block nblk).getJustifyQc).lockAndWrite
          blk1).fail failure)
  | commit {blk2 blk1 blk : BlockPtr} {commitQueue : List BlockPtr}
      (names2 : (core.block nblk).justifyBlockPtr = some blk2)
      (open2 : (core.block blk2).decided = false)
      (names1 : (core.block blk2).justifyBlockPtr = some blk1)
      (open1 : (core.block blk1).decided = false)
      (names : (core.block blk1).justifyBlockPtr = some blk)
      (open0 : (core.block blk).decided = false)
      (parent2 : (core.block blk2).parentBlockPtr = some blk1)
      (parent1 : (core.block blk1).parentBlockPtr = some blk)
      (walked : core.store.walk (core.store.height core.bExec)
        (core.store.height blk) blk = some (commitQueue, core.bExec)) :
      UpdateResult core nblk
        (((core.updateHqc blk2 (core.block nblk).getJustifyQc).lockAndWrite
          blk1).commit commitQueue blk (core.block blk1).getJustifyQc)

/-- `updateExec` runs on the state with the new lock and decides by the blocks as
they were. -/
theorem updateExec_result {core : HotstuffCore} {nblk blk2 blk1 : BlockPtr}
    (names2 : (core.block nblk).justifyBlockPtr = some blk2)
    (open2 : (core.block blk2).decided = false)
    (names1 : (core.block blk2).justifyBlockPtr = some blk1)
    (open1 : (core.block blk1).decided = false) :
    core.UpdateResult nblk
      (((core.updateHqc blk2 (core.block nblk).getJustifyQc).lockAndWrite
        blk1).updateExec blk2 blk1) := by
  -- Writing the lock does not touch the blocks, apart from the written flags.
  have sameProperty {Property : Type} (property : HotstuffBlock → Property)
      (kept : ∀ block, property (.markWritten block) = property block)
      (p : BlockPtr) :
      property (((core.updateHqc blk2
          (core.block nblk).getJustifyQc).lockAndWrite blk1).block p) =
        property (core.block p) := by
    have lockEq := property_lockAndWrite property kept
      (core.updateHqc blk2 (core.block nblk).getJustifyQc) blk1 p
    rwa [updateHqc_store] at lockEq
  have sameTree := sameTree_lockAndWrite
    (core.updateHqc blk2 (core.block nblk).getJustifyQc) blk1
  rw [updateHqc_store] at sameTree
  have sameExec : ((core.updateHqc blk2
      (core.block nblk).getJustifyQc).lockAndWrite blk1).bExec = core.bExec :=
    updateHqc_bExec core blk2 _
  unfold updateExec
  rw [sameProperty HotstuffBlock.getJustifyQc fun _ => rfl]
  simp only [sameProperty HotstuffBlock.justifyBlockPtr fun _ => rfl,
    sameProperty HotstuffBlock.parentBlockPtr fun _ => rfl,
    sameProperty HotstuffBlock.decided fun _ => rfl, sameTree.height,
    sameTree.walk, sameExec]
  split
  · exact .lock names2 open2 names1 open1
  rename_i blk names
  split
  · exact .lock names2 open2 names1 open1
  rename_i open0
  have open0 := eq_false_of_ne_true open0
  split
  · exact .lock names2 open2 names1 open1
  rename_i chained
  obtain ⟨parent2, parent1⟩ := not_or.mp chained
  have parent2 := not_not.mp parent2
  have parent1 := not_not.mp parent1
  split
  · rename_i noResult
    exact .fail names2 open2 names1 open1 names open0 parent2 parent1
      (.inl ⟨rfl, noResult⟩)
  rename_i commitQueue last walked
  split
  · rename_i breached
    exact .fail names2 open2 names1 open1 names open0 parent2 parent1
      (.inr ⟨rfl, commitQueue, last, walked, breached⟩)
  · rename_i arrived
    obtain rfl : last = core.bExec := not_not.mp arrived
    exact .commit names2 open2 names1 open1 names open0 parent2 parent1 walked

theorem update_result (core : HotstuffCore) (nblk : BlockPtr) :
    core.UpdateResult nblk (core.update nblk) := by
  unfold update
  split
  · rename_i none2
    exact .skip (by simp [none2])
  rename_i blk2 names2
  split
  · rename_i decided2
    refine .skip fun other names => ?_
    obtain rfl : blk2 = other := Option.some.inj (names2.symm.trans names)
    exact decided2
  rename_i open2
  have open2 := eq_false_of_ne_true open2
  -- The certificate step does not touch the block objects.
  have sameBlock (p : BlockPtr) :
      (core.updateHqc blk2 (core.block nblk).getJustifyQc).block p =
        core.block p := by
    rw [block, updateHqc_store, block]
  unfold updateLock
  split
  · rename_i none1
    rw [sameBlock] at none1
    exact .certificate names2 open2 (by simp [none1])
  rename_i blk1 names1
  rw [sameBlock] at names1
  split
  · rename_i decided1
    rw [sameBlock] at decided1
    refine .certificate names2 open2 fun other names => ?_
    obtain rfl : blk1 = other := Option.some.inj (names1.symm.trans names)
    exact decided1
  rename_i open1
  rw [sameBlock] at open1
  have open1 := eq_false_of_ne_true open1
  rw [writeLock_raiseLock]
  exact updateExec_result names2 open2 names1 open1

/-! ### Votes, proposals and minting -/

/-- The state after a vote was added to the certificate of a block. -/
def withVote (core : HotstuffCore) (certifiedBlock : BlockPtr)
    (extended : QuorumCertificate) : HotstuffCore :=
  { core with
    store := core.store.modifyBlock certifiedBlock (.withSelfQc extended) }

/-- A vote is rejected, or it extends the certificate of its block; the vote
that completes a quorum also raises the highest certificate. -/
theorem onReceiveVote_cases (core : HotstuffCore)
    (partialCert : PartialCertificate) (certifiedBlock : BlockPtr)
    (voterid : ReplicaID) :
    (∃ message,
      (core.block certifiedBlock).selfQc.addPartialCertificate voterid
        partialCert = .error message ∧
      core.onReceiveVote partialCert certifiedBlock voterid =
        core.fail (.certificate message)) ∨
    ∃ extended,
      (core.block certifiedBlock).selfQc.addPartialCertificate voterid
        partialCert = .ok extended ∧
      ((extended.hasQuorum core.config = true ∧
          (core.block certifiedBlock).selfQc.hasQuorum core.config = false ∧
          core.onReceiveVote partialCert certifiedBlock voterid =
            ((core.withVote certifiedBlock extended).updateHqc certifiedBlock
              extended).emit (.onNewQc
                ((core.withVote certifiedBlock extended).block
                  certifiedBlock).getHash)) ∨
        core.onReceiveVote partialCert certifiedBlock voterid =
          core.withVote certifiedBlock extended) := by
  unfold onReceiveVote
  dsimp only
  split
  · rename_i message rejected
    exact .inl ⟨message, rejected, rfl⟩
  · rename_i extended accepted
    refine .inr ⟨extended, accepted, ?_⟩
    split
    · rename_i edge
      simp only [Bool.and_eq_true, Bool.not_eq_true'] at edge
      exact .inl ⟨edge.1, edge.2, rfl⟩
    · exact .inr rfl

omit [Externals] in
/-- A favourable opinion is formed on a new height, by a certificate above the
lock or by a parent chain to the lock. -/
theorem opinion_true {core : HotstuffCore} {bnew : BlockPtr}
    (favourable : core.opinion bnew = some true) :
    core.vheight < core.store.height bnew ∧
      ∃ justifyBlock,
        (core.block bnew).justifyBlockPtr = some justifyBlock ∧
        (core.store.height core.bLock < core.store.height justifyBlock ∨
          ∃ passed, core.store.Chain bnew passed core.bLock) := by
  unfold opinion at favourable
  split at favourable
  · rename_i newHeight
    split at favourable
    · cases favourable
    rename_i justifyBlock names
    refine ⟨newHeight, justifyBlock, names, ?_⟩
    split at favourable
    · rename_i higher
      exact .inl higher
    · obtain ⟨⟨passed, last⟩, walked, arrived⟩ :=
        Option.map_eq_some_iff.mp favourable
      obtain rfl : last = core.bLock := of_decide_eq_true arrived
      exact .inr ⟨passed, (BlockStore.walk_cases walked).1⟩
  · cases favourable

/-- In a well formed store the vote rule always has a result. -/
theorem opinion_ne_none {core : HotstuffCore} {bnew : BlockPtr}
    (tree : core.store.WellFormed) : core.opinion bnew ≠ none := by
  unfold opinion
  split
  · rename_i newHeight
    obtain ⟨parent, -, proper⟩ := tree.parent_of_linked
      (tree.linked_of_height_pos (p := bnew) (by omega))
    obtain ⟨justifyBlock, names, -⟩ := proper.justifyStored
    have names' : (core.block bnew).justifyBlockPtr = some justifyBlock := names
    rw [names']
    dsimp only
    split
    · simp
    · obtain ⟨result, walked⟩ := Option.isSome_iff_exists.mp
        (tree.walk_isSome (core.store.height core.bLock)
          (Nat.le_refl (core.store.height bnew)))
      simp [walked]
  · simp

/-- The vote cast by `on_receive_proposal`. -/
def castVote (core : HotstuffCore) (bnew : BlockPtr) (proposer : ReplicaID) :
    HotstuffCore :=
  { core with
    vheight := core.store.height bnew % 2 ^ 32
    trace := .doVote bnew
      (PartialCertificate.sign (core.store.hash bnew) core.secretKey)
      proposer :: core.trace }

theorem onReceiveProposal_cases {core : HotstuffCore}
    (tree : core.store.WellFormed) (bnew : BlockPtr) (proposer : ReplicaID) :
    (core.opinion bnew = some true ∧
      core.onReceiveProposal bnew proposer =
        (core.castVote bnew proposer).update bnew) ∨
    (core.opinion bnew = some false ∧
      core.onReceiveProposal bnew proposer = core.update bnew) := by
  unfold onReceiveProposal
  split
  · rename_i noResult
    exact (opinion_ne_none tree noResult).elim
  · rename_i favourable
    exact .inl ⟨favourable, rfl⟩
  · rename_i unfavourable
    exact .inr ⟨unfavourable, rfl⟩

/-- The block that a proposal mints. -/
def minted (core : HotstuffCore) (body : Body) : HotstuffBlock :=
  .mintBlock body core.hqc.2 (core.store.hash core.bLeaf) core.selfId

/-- The store after the minted block was handed to it. -/
def mintedStore (core : HotstuffCore) (body : Body) :
    BlockStore × BlockStore.MissingDependencies :=
  (core.store.alloc (core.minted body)).1.insertBlock core.store.heap.length

theorem proposeBody_cases (core : HotstuffCore) (nonemptyProposal : Bool)
    (body : Body) :
    ((core.mintedStore body).2.any = true ∧
      core.proposeBody nonemptyProposal body =
        { core with
          store := (core.mintedStore body).1
          trace := .getNextVmBlock nonemptyProposal
            (core.store.height core.bLeaf + 1) :: core.trace
          failed := some .failedToInsertMintedBlock }) ∨
    ((core.mintedStore body).2.any = false ∧
      core.proposeBody nonemptyProposal body =
        { core with
          store := (core.mintedStore body).1
          bLeaf := core.store.heap.length
          trace :=
            [.broadcastProposal core.store.heap.length
              (core.minted body).wireBlock,
              .getNextVmBlock nonemptyProposal
                (core.store.height core.bLeaf + 1)] ++ core.trace }) := by
  unfold proposeBody
  dsimp only
  split
  · rename_i missing
    exact .inl ⟨missing, rfl⟩
  · rename_i complete
    exact .inr ⟨eq_false_of_ne_true complete, rfl⟩

/-! ### What is sent -/

/-- The replica keeps its identity and sends nothing. -/
structure Internal (core after : HotstuffCore) : Prop where
  selfId : after.selfId = core.selfId
  config : after.config = core.config
  secretKey : after.secretKey = core.secretKey
  trace : ∃ effects, after.trace = effects ++ core.trace ∧
    ∀ effect ∈ effects, effect.isSent = false

omit [Externals] in
theorem Internal.refl (core : HotstuffCore) : Internal core core :=
  ⟨rfl, rfl, rfl, [], rfl, by simp⟩

omit [Externals] in
theorem Internal.trans {first second third : HotstuffCore}
    (upper : Internal first second) (lower : Internal second third) :
    Internal first third := by
  obtain ⟨effects, traceEq, silent⟩ := upper.trace
  obtain ⟨effects', traceEq', silent'⟩ := lower.trace
  refine ⟨lower.selfId.trans upper.selfId, lower.config.trans upper.config,
    lower.secretKey.trans upper.secretKey, effects' ++ effects, ?_, ?_⟩
  · rw [traceEq', traceEq, List.append_assoc]
  · intro effect member
    exact (List.mem_append.mp member).elim (silent' effect) (silent effect)

theorem internal_updateHqc (core : HotstuffCore) (qcBlock : BlockPtr)
    (qc : QuorumCertificate) : Internal core (core.updateHqc qcBlock qc) := by
  rcases updateHqc_cases core qcBlock qc with
    ⟨-, effects, silent, result⟩ | ⟨-, result⟩
  · rw [result]
    refine ⟨rfl, rfl, rfl, effects, rfl, fun effect member => ?_⟩
    rw [silent effect member]
    rfl
  · rw [result]
    exact .refl core

omit [Externals] in
theorem internal_lockAndWrite (core : HotstuffCore) (blk1 : BlockPtr) :
    Internal core (core.lockAndWrite blk1) := by
  refine ⟨rfl, rfl, rfl, _, rfl, fun effect member => ?_⟩
  obtain ⟨wireBlock, -, rfl⟩ := List.mem_map.mp (List.mem_reverse.mp member)
  rfl

theorem internal_commit (core : HotstuffCore) (commitQueue : List BlockPtr)
    (blk : BlockPtr) (qc : QuorumCertificate) :
    Internal core (core.commit commitQueue blk qc) := by
  have applied (blocks : List BlockPtr) (core : HotstuffCore) :
      Internal core (blocks.foldl commitBlock core) := by
    induction blocks generalizing core with
    | nil => exact .refl core
    | cons p blocks ih =>
        have first : Internal core (core.commitBlock p) :=
          ⟨rfl, rfl, rfl, [_, _], rfl, by simp [Effect.isSent]⟩
        exact first.trans (ih _)
  have finished : Internal (commitQueue.reverse.foldl commitBlock core)
      (core.commit commitQueue blk qc) :=
    ⟨rfl, rfl, rfl, [_, _], rfl, by simp [Effect.isSent]⟩
  exact (applied _ core).trans finished

theorem internal_update (core : HotstuffCore) (nblk : BlockPtr) :
    Internal core (core.update nblk) := by
  have outcome := update_result core nblk
  generalize core.update nblk = after at outcome ⊢
  have locked (blk2 blk1 : BlockPtr) : Internal core
      ((core.updateHqc blk2 (core.block nblk).getJustifyQc).lockAndWrite
        blk1) :=
    (internal_updateHqc core _ _).trans (internal_lockAndWrite _ _)
  cases outcome with
  | skip => exact .refl core
  | certificate => exact internal_updateHqc core _ _
  | lock => exact locked _ _
  | fail => exact (locked _ _).trans ⟨rfl, rfl, rfl, [], rfl, by simp⟩
  | commit => exact (locked _ _).trans (internal_commit _ _ _ _)

theorem internal_onReceiveVote (core : HotstuffCore)
    (partialCert : PartialCertificate) (certifiedBlock : BlockPtr)
    (voterid : ReplicaID) :
    Internal core (core.onReceiveVote partialCert certifiedBlock voterid) := by
  have voted (extended : QuorumCertificate) :
      Internal core (core.withVote certifiedBlock extended) :=
    ⟨rfl, rfl, rfl, [], rfl, by simp⟩
  rcases core.onReceiveVote_cases partialCert certifiedBlock voterid with
    ⟨message, -, result⟩ | ⟨extended, -, ⟨-, -, result⟩ | result⟩ <;>
    rw [result]
  · exact ⟨rfl, rfl, rfl, [], rfl, by simp⟩
  · refine ((voted extended).trans (internal_updateHqc
      (core.withVote certifiedBlock extended) certifiedBlock extended)).trans ?_
    exact ⟨rfl, rfl, rfl, [_], rfl, by simp [Effect.isSent]⟩
  · exact voted extended

/-! ### Steps without a commit -/

/-- The effects in between neither apply a block nor complete a transaction. -/
def Calm (core after : HotstuffCore) : Prop :=
  ∃ effects, after.trace = effects ++ core.trace ∧
    ∀ effect ∈ effects, effect.appliedBlock = none ∧ effect.isTxn = false

omit [Externals] in
theorem Calm.of_trace {core after : HotstuffCore}
    (same : after.trace = core.trace) : Calm core after :=
  ⟨[], same, by simp⟩

omit [Externals] in
theorem Calm.trans {first second third : HotstuffCore}
    (upper : Calm first second) (lower : Calm second third) :
    Calm first third := by
  obtain ⟨effects, traceEq, silent⟩ := upper
  obtain ⟨effects', traceEq', silent'⟩ := lower
  refine ⟨effects' ++ effects, ?_, ?_⟩
  · rw [traceEq', traceEq, List.append_assoc]
  · intro effect member
    exact (List.mem_append.mp member).elim (silent' effect) (silent effect)

theorem calm_updateHqc (core : HotstuffCore) (qcBlock : BlockPtr)
    (qc : QuorumCertificate) : Calm core (core.updateHqc qcBlock qc) := by
  rcases updateHqc_cases core qcBlock qc with
    ⟨-, effects, silent, result⟩ | ⟨-, result⟩ <;> rw [result]
  · refine ⟨effects, rfl, ?_⟩
    intro effect member
    rw [silent effect member]
    exact ⟨rfl, rfl⟩
  · exact .of_trace rfl

omit [Externals] in
theorem calm_lockAndWrite (core : HotstuffCore) (blk1 : BlockPtr) :
    Calm core (core.lockAndWrite blk1) := by
  refine ⟨_, rfl, ?_⟩
  intro effect member
  obtain ⟨wireBlock, -, rfl⟩ := List.mem_map.mp (List.mem_reverse.mp member)
  exact ⟨rfl, rfl⟩

theorem calm_onReceiveVote (core : HotstuffCore) (cert : PartialCertificate)
    (p : BlockPtr) (voter : ReplicaID) :
    Calm core (core.onReceiveVote cert p voter) ∧
      (core.onReceiveVote cert p voter).bExec = core.bExec := by
  rcases core.onReceiveVote_cases cert p voter with
    ⟨message, -, result⟩ | ⟨extended, -, ⟨-, -, result⟩ | result⟩ <;>
    rw [result]
  · exact ⟨.of_trace rfl, rfl⟩
  · have raised := calm_updateHqc (core.withVote p extended) p extended
    exact ⟨raised.trans ⟨[_], rfl, List.forall_mem_singleton.mpr ⟨rfl, rfl⟩⟩,
      updateHqc_bExec (core.withVote p extended) p extended⟩
  · exact ⟨.of_trace rfl, rfl⟩

theorem calm_proposeBody (core : HotstuffCore) (nonemptyProposal : Bool)
    (body : Body) :
    Calm core (core.proposeBody nonemptyProposal body) ∧
      (core.proposeBody nonemptyProposal body).bExec = core.bExec := by
  rcases core.proposeBody_cases nonemptyProposal body with
    ⟨-, result⟩ | ⟨-, result⟩ <;> rw [result]
  · exact ⟨⟨[_], rfl, List.forall_mem_singleton.mpr ⟨rfl, rfl⟩⟩, rfl⟩
  · refine ⟨⟨_, rfl, ?_⟩, rfl⟩
    intro effect member
    simp only [List.mem_cons, List.not_mem_nil, or_false] at member
    rcases member with rfl | rfl <;> exact ⟨rfl, rfl⟩

end HotstuffCore

end Hotstuff
