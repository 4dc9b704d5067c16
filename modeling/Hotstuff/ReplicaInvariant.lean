import Hotstuff.ReplicaTree

/-!
# The invariant of one replica

When header hashes do not collide, the tree of a replica is a part of the forest
of headers.  `Valid` adds to the invariant on the block references what they
mean there: the leaf extends the highest certified block, and the committed
blocks are the path to the last executed one.
-/

namespace Hotstuff

variable [WireTypes] [Externals]

namespace HotstuffCore

variable (collisionFree : CollisionFree)

structure Valid (core : HotstuffCore) : Prop where
  tree : core.store.WellFormed
  votesValid : ∀ p < core.store.heap.length,
    ∀ entry ∈ (core.block p).selfQc.sigs.entries,
      QuorumCertificate.signerValid core.config (core.store.hash p) entry =
          true ∧
        entry.1 < maxReplicas
  verified : ∀ p, p ≠ 0 → p < core.store.heap.length →
    (QuorumCertificate.ofWire (core.block p).wireBlock.header.qc).verify
      core.config = .ok true
  hqcPlaced : core.store.Placed core.hqc.1
  hqcHash : core.hqc.2.justify = core.store.hash core.hqc.1
  hqcVerified :
    (QuorumCertificate.ofWire core.hqc.2).verify core.config = .ok true
  leafPlaced : core.store.Placed core.bLeaf
  leafExtends : (headerForest collisionFree).Ancestor
    (core.store.hash core.hqc.1) (core.store.hash core.bLeaf)
  lockPlaced : core.store.Placed core.bLock
  lockStored : core.store.Stored core.bLock
  execPlaced : core.store.Placed core.bExec
  execStored : core.store.Stored core.bExec
  decidedIff : ∀ p < core.store.heap.length,
    (core.block p).decided = true ↔
      ∃ passed, core.store.Chain core.bExec passed p
  execBelowLock : core.bExec = 0 ∨
    core.store.height core.bExec < core.store.height core.bLock
  votedPlaced : ∀ p cert target, .doVote p cert target ∈ core.trace →
    core.store.Placed p ∧
      cert = PartialCertificate.sign (core.store.hash p) core.secretKey
  committedPath : (headerForest collisionFree).Path
    (core.store.hash core.bExec) core.committed

variable {collisionFree}

theorem Valid.anchored {core : HotstuffCore}
    (valid : core.Valid collisionFree) : core.Anchored :=
  { valid with }

theorem Valid.init (selfId : ReplicaID) (config : ReplicaConfig)
    (secretKey : SecretKey) :
    Valid collisionFree (init selfId config secretKey) :=
  { Anchored.init selfId config secretKey with
    leafExtends := .refl _
    committedPath := .root }

/-- When the references of the core stay where they are, only the tree has to
be looked at. -/
theorem Valid.keep {core after : HotstuffCore}
    (valid : core.Valid collisionFree) (anchored : after.Anchored)
    (longer : core.store.Extends after.store)
    (sameHqc : after.hqc.1 = core.hqc.1) (sameLeaf : after.bLeaf = core.bLeaf)
    (sameExec : after.bExec = core.bExec)
    (sameCommitted : after.committed = core.committed) :
    after.Valid collisionFree :=
  { anchored with
    leafExtends := by
      rw [sameHqc, sameLeaf, longer.hash valid.hqcPlaced,
        longer.hash valid.leafPlaced]
      exact valid.leafExtends
    committedPath := by
      rw [sameExec, sameCommitted, longer.hash valid.execPlaced]
      exact valid.committedPath }

theorem Valid.garbageCollect {core : HotstuffCore}
    (valid : core.Valid collisionFree) :
    Valid collisionFree { core with store := core.store.runGc } :=
  valid.keep valid.anchored.garbageCollect
    (BlockStore.sameTree_runGc core.store).extends rfl rfl rfl rfl

/-! ### The trace -/

omit [Externals] in
theorem committed_append {core after : HotstuffCore} {effects : List Effect}
    (traceEq : after.trace = effects ++ core.trace)
    (silent : ∀ effect ∈ effects, effect.appliedHash = none) :
    after.committed = core.committed := by
  have noneApplied : effects.filterMap Effect.appliedHash = [] :=
    List.filterMap_eq_nil_iff.mpr silent
  rw [committed, traceEq, List.filterMap_append, noneApplied]
  rfl

theorem Valid.emit {core : HotstuffCore} (valid : core.Valid collisionFree)
    {effect : Effect} (notVote : effect.votedHash = none)
    (notApplied : effect.appliedHash = none) :
    (core.emit effect).Valid collisionFree :=
  valid.keep (valid.anchored.emit notVote) (.refl _) rfl rfl rfl
    (by simp [committed, HotstuffCore.emit, notApplied])

theorem Valid.fail {core : HotstuffCore} (valid : core.Valid collisionFree)
    (failure : Failure) : (core.fail failure).Valid collisionFree :=
  { valid with }

theorem Valid.castVote {core : HotstuffCore}
    (valid : core.Valid collisionFree) {bnew : BlockPtr}
    (placed : core.store.Placed bnew) (proposer : ReplicaID) :
    (core.castVote bnew proposer).Valid collisionFree :=
  valid.keep (valid.anchored.castVote placed proposer) (.refl _) rfl rfl rfl rfl

/-! ### The parts of update -/

theorem Valid.updateHqc {core : HotstuffCore}
    (valid : core.Valid collisionFree) {qcBlock : BlockPtr}
    {qc : QuorumCertificate} (placed : core.store.Placed qcBlock)
    (certifies : core.Certifies qc qcBlock) :
    (core.updateHqc qcBlock qc).Valid collisionFree := by
  have anchored := valid.anchored.updateHqc placed certifies
  rcases updateHqc_cases core qcBlock qc with
    ⟨-, effects, silent, result⟩ | ⟨-, result⟩
  · rw [result] at anchored ⊢
    exact
      { anchored with
        leafExtends := .refl _
        committedPath := by
          rw [committed_append rfl fun effect member => by
            rw [silent effect member]
            rfl]
          exact valid.committedPath }
  · rw [result]
    exact valid

theorem Valid.lockAndWrite {core : HotstuffCore}
    (valid : core.Valid collisionFree) {blk1 : BlockPtr}
    (placed : core.store.Placed blk1) (stored : core.store.Stored blk1) :
    (core.lockAndWrite blk1).Valid collisionFree := by
  refine valid.keep (valid.anchored.lockAndWrite placed stored)
    (core.sameTree_lockAndWrite blk1).extends rfl rfl rfl
    (committed_append rfl ?_)
  intro effect member
  obtain ⟨wireBlock, -, rfl⟩ := List.mem_map.mp (List.mem_reverse.mp member)
  rfl

omit [Externals] in
theorem appliedHash_commitEffects (core : HotstuffCore)
    (blocks : List BlockPtr) :
    (core.commitEffects blocks).filterMap Effect.appliedHash =
      blocks.map core.store.hash := by
  induction blocks with
  | nil => rfl
  | cons p blocks ih =>
      have unfolded : core.commitEffects (p :: blocks) =
          [.applyBlock (core.block p).markDecided,
            .notifyVmOfCommitment (core.block p).markDecided] ++
          core.commitEffects blocks := rfl
      rw [unfolded, List.filterMap_append, ih]
      rfl

/-- Committing a parent chain that ends at the last executed block. -/
theorem Valid.commit {core : HotstuffCore} (valid : core.Valid collisionFree)
    {commitQueue : List BlockPtr} {blk : BlockPtr} (qc : QuorumCertificate)
    (ready : core.CommitReady commitQueue blk) :
    (core.commit commitQueue blk qc).Valid collisionFree := by
  have anchored := valid.anchored.commit qc ready
  have chain := ready.chain
  have nodup := valid.tree.chain_nodup chain
  have bound : ∀ p ∈ commitQueue, p < core.store.heap.length :=
    fun p member =>
      BlockStore.WellFormed.lt_of_linked (chain.linked_of_mem member)
  have same := core.sameTree_commit commitQueue blk qc nodup bound
  obtain ⟨pruneHeight, committedHeight, result⟩ :=
    core.commit_eq commitQueue blk qc nodup bound
  have grown : (core.commit commitQueue blk qc).committed =
      core.committed ++ commitQueue.reverse.map core.store.hash := by
    rw [result]
    change (((core.commitEffects commitQueue.reverse).reverse ++
      core.trace).filterMap Effect.appliedHash).reverse = _
    simp [committed, List.filterMap_append, List.filterMap_reverse,
      appliedHash_commitEffects]
  refine { anchored with leafExtends := ?_, committedPath := ?_ }
  · rw [same.hash, same.hash, result]
    exact valid.leafExtends
  · rw [same.hash, grown, result]
    exact valid.tree.chain_path collisionFree chain valid.committedPath

theorem Valid.certificate_justify {core : HotstuffCore}
    (valid : core.Valid collisionFree) {nblk blk2 : BlockPtr}
    (names2 : (core.block nblk).justifyBlockPtr = some blk2) :
    (core.updateHqc blk2 (core.block nblk).getJustifyQc).Valid
      collisionFree := by
  obtain ⟨-, placed, certifies⟩ := valid.anchored.certifies_justify names2
  exact valid.updateHqc placed certifies

theorem Valid.lock_justify {core : HotstuffCore}
    (valid : core.Valid collisionFree) {nblk blk2 blk1 : BlockPtr}
    (names2 : (core.block nblk).justifyBlockPtr = some blk2)
    (names1 : (core.block blk2).justifyBlockPtr = some blk1) :
    ((core.updateHqc blk2 (core.block nblk).getJustifyQc).lockAndWrite
      blk1).Valid collisionFree := by
  obtain ⟨stored, placed, -⟩ := valid.anchored.certifies_justify names1
  exact (valid.certificate_justify names2).lockAndWrite
    (by rwa [updateHqc_store]) (by rwa [updateHqc_store])

theorem Valid.update {core : HotstuffCore} (valid : core.Valid collisionFree)
    (nblk : BlockPtr) : (core.update nblk).Valid collisionFree := by
  have outcome := update_result core nblk
  generalize core.update nblk = after at outcome ⊢
  cases outcome with
  | skip => exact valid
  | certificate names2 => exact valid.certificate_justify names2
  | lock names2 _ names1 => exact valid.lock_justify names2 names1
  | fail names2 _ names1 => exact (valid.lock_justify names2 names1).fail _
  | commit names2 _ names1 _ names _ _ parent1 walked =>
      exact (valid.lock_justify names2 names1).commit _
        (valid.anchored.commitReady _ names parent1 walked)

/-! ### Votes and new blocks -/

theorem Valid.withVote {core : HotstuffCore}
    (valid : core.Valid collisionFree) {cert : PartialCertificate}
    {p : BlockPtr} {voter : ReplicaID} {extended : QuorumCertificate}
    (added : (core.block p).selfQc.addPartialCertificate voter cert =
      .ok extended)
    (good : core.GoodVote cert p voter) :
    (core.withVote p extended).Valid collisionFree :=
  valid.keep (valid.anchored.withVote added good)
    (sameTree_withVote added).extends rfl rfl rfl rfl

/-- An accepted vote keeps the invariant and never fails. -/
theorem Valid.onReceiveVote {core : HotstuffCore}
    (valid : core.Valid collisionFree) {cert : PartialCertificate}
    {p : BlockPtr} {voter : ReplicaID} (good : core.GoodVote cert p voter) :
    (core.onReceiveVote cert p voter).Valid collisionFree := by
  rcases core.onReceiveVote_cases cert p voter with
    ⟨message, rejected, -⟩ | ⟨extended, added, outcome⟩
  · obtain ⟨_, accepted⟩ := good.added
    rw [accepted] at rejected
    cases rejected
  have voted := valid.withVote added good
  rcases outcome with ⟨quorum, -, result⟩ | result <;> rw [result]
  · exact (voted.updateHqc
      (((sameTree_withVote added).placed p).mpr good.placed)
      (valid.anchored.certifies_extended added good quorum)).emit rfl rfl
  · exact voted

theorem Valid.alloc {core : HotstuffCore} (valid : core.Valid collisionFree)
    {block : HotstuffBlock} {wireBlock : HotstuffBlockWire}
    (fresh : FreshBlock core.config block wireBlock) :
    Valid collisionFree { core with store := (core.store.alloc block).1 } :=
  valid.keep (valid.anchored.alloc fresh) (valid.tree.extends_alloc block)
    rfl rfl rfl rfl

theorem Valid.insertBlock {core : HotstuffCore}
    (valid : core.Valid collisionFree) {p : BlockPtr} (notGenesis : p ≠ 0)
    (bound : p < core.store.heap.length) :
    Valid collisionFree
      { core with store := (core.store.insertBlock p).1 } :=
  valid.keep (valid.anchored.insertBlock notGenesis bound)
    (valid.tree.insertBlock notGenesis bound).2 rfl rfl rfl rfl

/-- A minted block is one above the leaf. -/
theorem Valid.height_minted {core : HotstuffCore}
    (valid : core.Valid collisionFree) (body : Body) :
    (core.mintedStore body).1.height core.store.heap.length =
      core.store.height core.bLeaf + 1 := by
  obtain ⟨-, -, inserted, parent, edge, parentHash⟩ :=
    valid.anchored.mintedStore body
  exact inserted.tree.height_child collisionFree valid.tree edge
    valid.leafPlaced parentHash

theorem Valid.proposeBody {core : HotstuffCore}
    (valid : core.Valid collisionFree) (nonemptyProposal : Bool)
    (body : Body) :
    (core.proposeBody nonemptyProposal body).Valid collisionFree := by
  obtain ⟨anchored, -⟩ := valid.anchored.proposeBody nonemptyProposal body
  obtain ⟨-, longer, inserted, parent, edge, parentHash⟩ :=
    valid.anchored.mintedStore body
  rw [valid.anchored.proposeBody_eq] at anchored ⊢
  refine { anchored with leafExtends := ?_, committedPath := ?_ }
  · have above := inserted.tree.parent_edge collisionFree edge
    rw [parentHash] at above
    dsimp only
    rw [longer.hash valid.hqcPlaced]
    exact valid.leafExtends.tail above
  · dsimp only
    rw [longer.hash valid.execPlaced]
    exact valid.committedPath

theorem Valid.step {core : HotstuffCore} (valid : core.Valid collisionFree)
    (configured : core.Configured) {event : Event}
    (enabled : core.Enabled event) :
    (core.step event).Valid collisionFree := by
  cases event with
  | receiveBlock wireBlock source =>
      exact valid.alloc (freshBlock_received enabled)
  | insertBlock p => exact valid.insertBlock enabled.2.1 enabled.2.2
  | vote cert p voter =>
      exact valid.onReceiveVote (valid.anchored.goodVote configured enabled)
  | selfVote p =>
      exact valid.onReceiveVote
        (valid.anchored.goodSelfVote configured enabled.2)
  | proposal p proposer =>
      have placed := valid.anchored.placed_of_height enabled.2.1
      rcases onReceiveProposal_cases valid.tree p proposer with
        ⟨-, result⟩ | ⟨-, result⟩ <;> rw [HotstuffCore.step, result]
      · exact (valid.castVote placed proposer).update p
      · exact valid.update p
  | doPropose body => exact valid.proposeBody _ body
  | doEmptyPropose body => exact valid.proposeBody _ body
  | garbageCollect => exact valid.garbageCollect

end HotstuffCore

end Hotstuff
