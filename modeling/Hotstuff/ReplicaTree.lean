import Hotstuff.ConsensusSteps

/-!
# The block references of one replica

`Anchored` holds in every state that a replica reaches from a clean start,
whatever the other replicas send: its block tree is well formed, the
certificates it holds verify, its references lead into the tree, and the decided
blocks are exactly the ancestors of the last executed one.  No assumption is
made about the blocks that arrive beyond the checks that the code performs, and
none about the hash function.
-/

namespace Hotstuff

variable [WireTypes] [Externals]

namespace HotstuffCore

/-- The start of a correct replica: all ids fit into the bitmap, and the own
secret key belongs to the own configured public key. -/
structure Configured (core : HotstuffCore) : Prop where
  idsSmall : ∀ rid ∈ core.config.ids, rid < maxReplicas
  selfSigns : ∀ hash, QuorumCertificate.signerValid core.config hash
    (core.selfId, cryptoSign hash core.secretKey) = true

structure Anchored (core : HotstuffCore) : Prop where
  tree : core.store.WellFormed
  votesValid : ∀ p < core.store.heap.length,
    ∀ entry ∈ (core.block p).selfQc.sigs.entries,
      QuorumCertificate.signerValid core.config (core.store.hash p) entry =
          true ∧
        entry.1 < maxReplicas
  verified : ∀ p, p ≠ 0 → p < core.store.heap.length →
    (QuorumCertificate.ofWire (core.block p).wireBlock.header.qc).verify
      core.config = .ok true
  hqcPlaced : core.store.Placed core.hqc.1
  hqcHash : core.hqc.2.justify = core.store.hash core.hqc.1
  hqcVerified :
    (QuorumCertificate.ofWire core.hqc.2).verify core.config = .ok true
  leafPlaced : core.store.Placed core.bLeaf
  lockPlaced : core.store.Placed core.bLock
  lockStored : core.store.Stored core.bLock
  execPlaced : core.store.Placed core.bExec
  execStored : core.store.Stored core.bExec
  decidedIff : ∀ p < core.store.heap.length,
    (core.block p).decided = true ↔
      ∃ passed, core.store.Chain core.bExec passed p
  execBelowLock : core.bExec = 0 ∨
    core.store.height core.bExec < core.store.height core.bLock
  votedPlaced : ∀ p cert target, .doVote p cert target ∈ core.trace →
    core.store.Placed p ∧
      cert = PartialCertificate.sign (core.store.hash p) core.secretKey

theorem Anchored.init (selfId : ReplicaID) (config : ReplicaConfig)
    (secretKey : SecretKey) :
    Anchored (init selfId config secretKey) := by
  have single (p : BlockPtr) : BlockStore.init.block p = .genesisBlock := by
    cases p <;> rfl
  have stored := BlockStore.wellFormed_init.genesis_stored
  constructor
  · exact BlockStore.wellFormed_init
  · intro p _ entry member
    have noEntries : ((HotstuffCore.init selfId config secretKey).block
        p).selfQc.sigs.entries = [] := by
      change (BlockStore.init.block p).selfQc.sigs.entries = []
      rw [single]
      rfl
    rw [noEntries] at member
    cases member
  · intro p notGenesis bound
    exact (notGenesis (Nat.lt_one_iff.mp bound)).elim
  · exact .inl rfl
  · rfl
  · rw [QuorumCertificate.verify, if_pos]
    exact QuorumCertificate.objHash_ofWire _
  · exact .inl rfl
  · exact .inl rfl
  · exact stored
  · exact .inl rfl
  · exact stored
  · intro p bound
    obtain rfl : p = 0 := Nat.lt_one_iff.mp bound
    exact ⟨fun _ => ⟨[], .here 0⟩, fun _ => rfl⟩
  · exact .inl rfl
  · intro p cert target member
    cases member

/-! ### Changing the store -/

/-- The parts of the invariant that speak about the references of the core
survive every extension of the store. -/
theorem Anchored.extendStore {core : HotstuffCore}
    (anchored : core.Anchored) {store : BlockStore}
    (longer : core.store.Extends store) (tree : store.WellFormed)
    (votesValid : ∀ p < store.heap.length,
      ∀ entry ∈ (store.block p).selfQc.sigs.entries,
        QuorumCertificate.signerValid core.config (store.hash p) entry = true ∧
          entry.1 < maxReplicas)
    (verified : ∀ p, p ≠ 0 → p < store.heap.length →
      (QuorumCertificate.ofWire (store.block p).wireBlock.header.qc).verify
        core.config = .ok true)
    (decidedIff : ∀ p < store.heap.length,
      (store.block p).decided = true ↔
        ∃ passed, core.store.Chain core.bExec passed p) :
    Anchored { core with store := store } where
  tree := tree
  votesValid := votesValid
  verified := verified
  hqcPlaced := longer.placed anchored.hqcPlaced
  hqcHash := anchored.hqcHash.trans (longer.hash anchored.hqcPlaced).symm
  hqcVerified := anchored.hqcVerified
  leafPlaced := longer.placed anchored.leafPlaced
  lockPlaced := longer.placed anchored.lockPlaced
  lockStored := longer.stored anchored.lockPlaced anchored.lockStored
  execPlaced := longer.placed anchored.execPlaced
  execStored := longer.stored anchored.execPlaced anchored.execStored
  decidedIff := by
    intro p bound
    refine (decidedIff p bound).trans ?_
    simp only [anchored.tree.chain_extends longer anchored.execPlaced]
  execBelowLock := by
    change core.bExec = 0 ∨
      store.height core.bExec < store.height core.bLock
    rw [longer.height anchored.execPlaced, longer.height anchored.lockPlaced]
    exact anchored.execBelowLock
  votedPlaced := by
    intro p cert target member
    obtain ⟨placed, certEq⟩ := anchored.votedPlaced p cert target member
    refine ⟨longer.placed placed, ?_⟩
    change cert = PartialCertificate.sign (store.hash p) core.secretKey
    rw [longer.hash placed]
    exact certEq

/-- Changing statuses other than the votes and the decided flag. -/
theorem Anchored.sameTree {core : HotstuffCore}
    (anchored : core.Anchored) {store : BlockStore}
    (same : core.store.SameTree store)
    (selfQcEq : ∀ p, (store.block p).selfQc = (core.store.block p).selfQc)
    (decidedEq : ∀ p, (store.block p).decided = (core.store.block p).decided) :
    Anchored { core with store := store } := by
  have headerEq (p : BlockPtr) :
      (store.block p).wireBlock.header =
        (core.store.block p).wireBlock.header :=
    congrArg HotstuffBlock.Links.header (same.links p)
  refine anchored.extendStore same.extends (same.wellFormed anchored.tree) ?_ ?_ ?_
  · intro p bound entry member
    rw [selfQcEq] at member
    rw [same.hash]
    exact anchored.votesValid p (same.length ▸ bound) entry member
  · intro p notGenesis bound
    rw [headerEq]
    exact anchored.verified p notGenesis (same.length ▸ bound)
  · intro p bound
    rw [decidedEq]
    exact anchored.decidedIff p (same.length ▸ bound)

theorem Anchored.garbageCollect {core : HotstuffCore}
    (anchored : core.Anchored) :
    Anchored { core with store := core.store.runGc } := by
  refine anchored.sameTree (BlockStore.sameTree_runGc core.store) ?_ ?_
  · refine BlockStore.property_runGc HotstuffBlock.selfQc ?_ core.store
    intro block
    unfold BlockStore.flushFromMemory
    split <;> rfl
  · refine BlockStore.property_runGc HotstuffBlock.decided ?_ core.store
    intro block
    unfold BlockStore.flushFromMemory
    split <;> rfl

/-! ### The trace -/

/-- Effects other than votes do not matter. -/
theorem Anchored.addEffects {core : HotstuffCore}
    (anchored : core.Anchored) (effects : List Effect)
    (silent : ∀ effect ∈ effects, effect.votedHash = none) :
    Anchored { core with trace := effects ++ core.trace } :=
  { anchored with
    votedPlaced := by
      intro p cert target member
      rcases List.mem_append.mp member with new | old
      · cases silent _ new
      · exact anchored.votedPlaced p cert target old }

theorem Anchored.emit {core : HotstuffCore} (anchored : core.Anchored)
    {effect : Effect} (notVote : effect.votedHash = none) :
    (core.emit effect).Anchored :=
  anchored.addEffects [effect] (by simp [notVote])

theorem Anchored.fail {core : HotstuffCore} (anchored : core.Anchored)
    (failure : Failure) : (core.fail failure).Anchored :=
  { anchored with }

theorem Anchored.castVote {core : HotstuffCore}
    (anchored : core.Anchored) {bnew : BlockPtr}
    (placed : core.store.Placed bnew) (proposer : ReplicaID) :
    (core.castVote bnew proposer).Anchored :=
  { anchored with
    votedPlaced := by
      intro p cert target member
      rcases List.mem_cons.mp member with new | old
      · obtain ⟨rfl, rfl, -⟩ := Effect.doVote.inj new
        exact ⟨placed, rfl⟩
      · exact anchored.votedPlaced p cert target old }

/-! ### The parts of update -/

/-- A certificate that the core may hold for a block. -/
structure Certifies (core : HotstuffCore) (qc : QuorumCertificate)
    (p : BlockPtr) : Prop where
  objHash : qc.objHash = core.store.hash p
  small : ∀ rid ∈ qc.sigs.keys, rid < maxReplicas
  verified : qc.verify core.config = .ok true

theorem Anchored.updateHqc {core : HotstuffCore}
    (anchored : core.Anchored) {qcBlock : BlockPtr}
    {qc : QuorumCertificate} (placed : core.store.Placed qcBlock)
    (certifies : core.Certifies qc qcBlock) :
    (core.updateHqc qcBlock qc).Anchored := by
  rcases updateHqc_cases core qcBlock qc with
    ⟨-, effects, silent, result⟩ | ⟨-, result⟩
  · rw [result]
    have extended := anchored.addEffects effects fun effect member => by
      simp [silent effect member, Effect.votedHash]
    exact
      { extended with
        hqcPlaced := placed
        hqcHash := certifies.objHash
        hqcVerified := by
          change (QuorumCertificate.ofWire qc.serialize).verify core.config =
            .ok true
          rw [QuorumCertificate.ofWire_serialize certifies.small]
          exact certifies.verified
        leafPlaced := placed }
  · rw [result]
    exact anchored

/-- The certificate in a linked block certifies its justify block. -/
theorem Anchored.certifies_justify {core : HotstuffCore}
    (anchored : core.Anchored) {p justify : BlockPtr}
    (names : (core.block p).justifyBlockPtr = some justify) :
    core.store.Stored justify ∧ core.store.Placed justify ∧
      core.Certifies (core.block p).getJustifyQc justify := by
  have linked := anchored.tree.linked_of_justify names
  have notGenesis := anchored.tree.ne_zero_of_linked linked
  have bound := BlockStore.WellFormed.lt_of_linked linked
  obtain ⟨stored, placed, hashEq⟩ := anchored.tree.justify_stored names
  have decoded : (core.block p).getJustifyQc =
      .ofWire (core.block p).wireBlock.header.qc := by
    have parsed : (core.block p).parsedQc = some (.ofWire
        (core.block p).wireBlock.header.qc) :=
      (anchored.tree.hashed p notGenesis bound).2
    rw [HotstuffBlock.getJustifyQc, parsed]
    rfl
  refine ⟨stored, placed, hashEq.symm, ?_, ?_⟩
  · rw [decoded]
    exact QuorumCertificate.keys_ofWire_lt _
  · rw [decoded]
    exact anchored.verified p notGenesis bound

theorem Anchored.lockAndWrite {core : HotstuffCore}
    (anchored : core.Anchored) {blk1 : BlockPtr}
    (placed : core.store.Placed blk1) (stored : core.store.Stored blk1) :
    (core.lockAndWrite blk1).Anchored := by
  obtain ⟨higher, -, choice⟩ := core.raisedLock_cases blk1
  have locked : Anchored
      { core with bLock := core.raisedLock blk1 } :=
    { anchored with
      lockPlaced := by
        rcases choice with same | same <;> simp only [same]
        · exact placed
        · exact anchored.lockPlaced
      lockStored := by
        rcases choice with same | same <;> simp only [same]
        · exact stored
        · exact anchored.lockStored
      execBelowLock := anchored.execBelowLock.imp_right fun below =>
        below.trans_le higher }
  have written := locked.sameTree (core.sameTree_lockAndWrite blk1)
    (property_lockAndWrite HotstuffBlock.selfQc (fun _ => rfl) core blk1)
    (property_lockAndWrite HotstuffBlock.decided (fun _ => rfl) core blk1)
  refine written.addEffects _ ?_
  intro effect member
  obtain ⟨wireBlock, -, rfl⟩ := List.mem_map.mp (List.mem_reverse.mp member)
  rfl

omit [Externals] in
theorem votedHash_commitEffects (core : HotstuffCore)
    (blocks : List BlockPtr) :
    ∀ effect ∈ core.commitEffects blocks, effect.votedHash = none := by
  intro effect member
  obtain ⟨p, -, rfl | rfl⟩ := mem_commitEffects member
  · rfl
  · rfl

/-- The queue leads from the block down to the last executed one, below the
lock. -/
structure CommitReady (core : HotstuffCore) (commitQueue : List BlockPtr)
    (blk : BlockPtr) : Prop where
  placed : core.store.Placed blk
  stored : core.store.Stored blk
  chain : core.store.Chain blk commitQueue core.bExec
  below : core.store.height blk < core.store.height core.bLock

/-- Once the queue is decided, so are exactly the new last executed block and
its ancestors. -/
theorem Anchored.decided_commitQueue {core : HotstuffCore}
    (anchored : core.Anchored) {commitQueue : List BlockPtr} {blk : BlockPtr}
    (chain : core.store.Chain blk commitQueue core.bExec) {p : BlockPtr}
    (bound : p < core.store.heap.length) :
    ((decideBlocks core.store commitQueue.reverse).block p).decided = true ↔
      ∃ passed, core.store.Chain blk passed p := by
  have before : (core.store.block p).decided = true ↔
      ∃ passed, core.store.Chain core.bExec passed p :=
    anchored.decidedIff p bound
  rw [decided_decideBlocks core.store commitQueue.reverse p bound,
    List.mem_reverse, before]
  constructor
  · rintro (⟨passed, older⟩ | member)
    · exact ⟨_, chain.trans older⟩
    · obtain ⟨above, -, upper, -⟩ := chain.of_mem member
      exact ⟨above, upper⟩
  · rintro ⟨passed, other⟩
    exact (chain.split other).symm

/-- Committing a parent chain that ends at the last executed block. -/
theorem Anchored.commit {core : HotstuffCore} (anchored : core.Anchored)
    {commitQueue : List BlockPtr} {blk : BlockPtr} (qc : QuorumCertificate)
    (ready : core.CommitReady commitQueue blk) :
    (core.commit commitQueue blk qc).Anchored := by
  obtain ⟨placed, stored, chain, below⟩ := ready
  have bound : ∀ p ∈ commitQueue, p < core.store.heap.length :=
    fun p member =>
      BlockStore.WellFormed.lt_of_linked (chain.linked_of_mem member)
  obtain ⟨pruneHeight, committedHeight, result⟩ := core.commit_eq commitQueue
    blk qc (anchored.tree.chain_nodup chain) bound
  rw [result]
  have same : core.store.SameTree
      ((decideBlocks core.store commitQueue.reverse).pruneBelowHeight
        pruneHeight) :=
    (sameTree_decideBlocks core.store commitQueue.reverse).trans
      ⟨rfl, rfl, fun _ => rfl⟩
  have selfQcEq (p : BlockPtr) :=
    property_decideBlocks HotstuffBlock.selfQc (fun _ => rfl) core.store
      commitQueue.reverse p
  have headerEq (p : BlockPtr) :=
    property_decideBlocks (fun block => block.wireBlock.header)
      (fun _ => rfl) core.store commitQueue.reverse p
  -- The references are judged with the new last executed block.
  have executed : Anchored
      { core with
        bExec := blk
        store := (decideBlocks core.store commitQueue.reverse).pruneBelowHeight
          pruneHeight
        trace := (core.commitEffects commitQueue.reverse).reverse ++
          core.trace } :=
    { tree := same.wellFormed anchored.tree
      votesValid := by
        intro p inside entry member
        change entry ∈ ((decideBlocks core.store
          commitQueue.reverse).block p).selfQc.sigs.entries at member
        rw [selfQcEq] at member
        have hashEq := same.hash p
        have old := anchored.votesValid p (same.length ▸ inside) entry member
        rw [← hashEq] at old
        exact old
      verified := by
        intro p notGenesis inside
        change (QuorumCertificate.ofWire ((decideBlocks core.store
          commitQueue.reverse).block p).wireBlock.header.qc).verify
            core.config = .ok true
        rw [headerEq]
        exact anchored.verified p notGenesis (same.length ▸ inside)
      hqcPlaced := (same.placed _).mpr anchored.hqcPlaced
      hqcHash := anchored.hqcHash.trans (same.hash _).symm
      hqcVerified := anchored.hqcVerified
      leafPlaced := (same.placed _).mpr anchored.leafPlaced
      lockPlaced := (same.placed _).mpr anchored.lockPlaced
      lockStored := (same.stored _).mpr anchored.lockStored
      execPlaced := (same.placed _).mpr placed
      execStored := (same.stored _).mpr stored
      decidedIff := by
        intro p inside
        simp only [anchored.tree.chain_extends same.extends placed]
        exact anchored.decided_commitQueue chain (same.length ▸ inside)
      execBelowLock := by
        dsimp only
        rw [same.height, same.height]
        exact .inr below
      votedPlaced := by
        intro p cert target member
        rcases List.mem_append.mp member with new | old
        · cases votedHash_commitEffects core _ _ (List.mem_reverse.mp new)
        · obtain ⟨votePlaced, certEq⟩ := anchored.votedPlaced p cert target old
          refine ⟨(same.placed _).mpr votePlaced, ?_⟩
          dsimp only
          rw [same.hash]
          exact certEq }
  refine executed.addEffects [_, _] ?_
  simp [Effect.votedHash]

theorem Anchored.certificate_justify {core : HotstuffCore}
    (anchored : core.Anchored) {nblk blk2 : BlockPtr}
    (names2 : (core.block nblk).justifyBlockPtr = some blk2) :
    (core.updateHqc blk2 (core.block nblk).getJustifyQc).Anchored := by
  obtain ⟨-, placed, certifies⟩ := anchored.certifies_justify names2
  exact anchored.updateHqc placed certifies

theorem Anchored.lock_justify {core : HotstuffCore}
    (anchored : core.Anchored) {nblk blk2 blk1 : BlockPtr}
    (names2 : (core.block nblk).justifyBlockPtr = some blk2)
    (names1 : (core.block blk2).justifyBlockPtr = some blk1) :
    ((core.updateHqc blk2 (core.block nblk).getJustifyQc).lockAndWrite
      blk1).Anchored := by
  obtain ⟨stored, placed, -⟩ := anchored.certifies_justify names1
  exact (anchored.certificate_justify names2).lockAndWrite
    (by rwa [updateHqc_store]) (by rwa [updateHqc_store])

/-- `update` moves the lock above the block to commit before it commits. -/
theorem Anchored.commitReady {core : HotstuffCore} (anchored : core.Anchored)
    {blk2 blk1 blk : BlockPtr} {commitQueue : List BlockPtr}
    (qc : QuorumCertificate)
    (names : (core.block blk1).justifyBlockPtr = some blk)
    (parent1 : (core.block blk1).parentBlockPtr = some blk)
    (walked : core.store.walk (core.store.height core.bExec)
      (core.store.height blk) blk = some (commitQueue, core.bExec)) :
    ((core.updateHqc blk2 qc).lockAndWrite blk1).CommitReady commitQueue
      blk := by
  have same := (core.updateHqc blk2 qc).sameTree_lockAndWrite blk1
  rw [updateHqc_store] at same
  obtain ⟨stored, placed, -⟩ := anchored.certifies_justify names
  obtain ⟨chain, -, -⟩ := BlockStore.walk_cases walked
  refine ⟨(same.placed _).mpr placed, (same.stored _).mpr stored, ?_, ?_⟩
  · have exec : ((core.updateHqc blk2 qc).lockAndWrite blk1).bExec =
        core.bExec := updateHqc_bExec core blk2 qc
    rw [exec, anchored.tree.chain_extends same.extends placed]
    exact chain
  · obtain ⟨-, raised, -⟩ := (core.updateHqc blk2 qc).raisedLock_cases blk1
    rw [updateHqc_store] at raised
    rw [same.height, same.height]
    have parentHeight := (anchored.tree.linked blk1 blk parent1).heightEq
    change core.store.height blk < core.store.height
      ((core.updateHqc blk2 qc).raisedLock blk1)
    omega

theorem Anchored.update {core : HotstuffCore} (anchored : core.Anchored)
    (nblk : BlockPtr) : (core.update nblk).Anchored := by
  have outcome := update_result core nblk
  generalize core.update nblk = after at outcome ⊢
  cases outcome with
  | skip => exact anchored
  | certificate names2 => exact anchored.certificate_justify names2
  | lock names2 _ names1 => exact anchored.lock_justify names2 names1
  | fail names2 _ names1 => exact (anchored.lock_justify names2 names1).fail _
  | commit names2 _ names1 _ names _ _ parent1 walked =>
      exact (anchored.lock_justify names2 names1).commit _
        (anchored.commitReady _ names parent1 walked)

/-! ### Votes -/

/-- A vote that the code accepts. -/
structure GoodVote (core : HotstuffCore) (cert : PartialCertificate)
    (p : BlockPtr) (voter : ReplicaID) : Prop where
  placed : core.store.Placed p
  hashEq : cert.hash = core.store.hash p
  valid : QuorumCertificate.signerValid core.config cert.hash
    (voter, cert.sig) = true
  small : voter < maxReplicas

theorem GoodVote.added {core : HotstuffCore} {cert : PartialCertificate}
    {p : BlockPtr} {voter : ReplicaID} (good : core.GoodVote cert p voter) :
    ∃ extended, (core.block p).selfQc.addPartialCertificate voter cert =
      .ok extended := by
  have sameHash : cert.hash = (core.block p).selfQc.objHash := good.hashEq
  rw [QuorumCertificate.addPartialCertificate, if_neg (not_not.mpr sameHash),
    if_neg (Nat.not_le.mpr good.small)]
  exact ⟨_, rfl⟩

section Extended

variable {core : HotstuffCore} {cert : PartialCertificate} {p : BlockPtr}
  {voter : ReplicaID} {extended : QuorumCertificate}
  (added : (core.block p).selfQc.addPartialCertificate voter cert =
    .ok extended)

include added

omit [Externals] in
theorem sameTree_withVote :
    core.store.SameTree (core.withVote p extended).store where
  length := BlockStore.length_modifyBlock _ _ _
  cache := rfl
  links := by
    intro q
    rw [withVote, BlockStore.block_modifyBlock]
    split
    · rename_i both
      obtain ⟨rfl, -⟩ := both
      have sameHash : extended.objHash = core.store.hash p :=
        (QuorumCertificate.addPartialCertificate_cases added).1
      simp only [HotstuffBlock.links, HotstuffBlock.withSelfQc,
        HotstuffBlock.getHash, sameHash]
      rfl
    · rfl

theorem Anchored.withVote (anchored : core.Anchored)
    (good : core.GoodVote cert p voter) :
    (core.withVote p extended).Anchored := by
  have same := sameTree_withVote added
  have keep {Property : Type} (property : HotstuffBlock → Property)
      (kept : ∀ block, property (.withSelfQc extended block) = property block)
      (q : BlockPtr) :
      property ((core.withVote p extended).store.block q) =
        property (core.store.block q) :=
    BlockStore.property_modifyBlock property _ kept core.store p q
  refine anchored.extendStore same.extends (same.wellFormed anchored.tree) ?_ ?_ ?_
  · intro q inside entry member
    have inside' : q < core.store.heap.length := same.length ▸ inside
    have hashEq := same.hash q
    rw [HotstuffCore.withVote] at hashEq
    rw [hashEq]
    rw [BlockStore.block_modifyBlock] at member
    split at member
    · rename_i both
      obtain ⟨rfl, -⟩ := both
      rcases (QuorumCertificate.addPartialCertificate_cases added).2 entry
        member with old | rfl
      · exact anchored.votesValid p inside' entry old
      · rw [← good.hashEq]
        exact ⟨good.valid, good.small⟩
    · exact anchored.votesValid q inside' entry member
  · intro q notGenesis inside
    have headerEq := keep (fun block => block.wireBlock.header) (fun _ => rfl) q
    rw [HotstuffCore.withVote] at headerEq
    rw [headerEq]
    exact anchored.verified q notGenesis (same.length ▸ inside)
  · intro q inside
    have decidedEq := keep HotstuffBlock.decided (fun _ => rfl) q
    rw [HotstuffCore.withVote] at decidedEq
    rw [decidedEq]
    exact anchored.decidedIff q (same.length ▸ inside)

end Extended

omit [Externals] in
theorem selfQc_withVote (core : HotstuffCore) {p : BlockPtr}
    (extended : QuorumCertificate) (bound : p < core.store.heap.length) :
    ((core.withVote p extended).block p).selfQc = extended := by
  rw [block, withVote, BlockStore.block_modifyBlock, if_pos ⟨rfl, bound⟩]
  rfl

/-- The certificate of a block, once it has a quorum, certifies the block. -/
theorem Anchored.certifies_selfQc {core : HotstuffCore}
    (anchored : core.Anchored) {p : BlockPtr}
    (bound : p < core.store.heap.length)
    (quorum : (core.block p).selfQc.hasQuorum core.config = true) :
    core.Certifies (core.block p).selfQc p where
  objHash := rfl
  small := by
    intro rid member
    obtain ⟨entry, entryMem, rfl⟩ := List.mem_map.mp member
    exact (anchored.votesValid p bound entry entryMem).2
  verified := QuorumCertificate.verify_of_valid
    (fun entry member => (anchored.votesValid p bound entry member).1) quorum

theorem failed_updateHqc (core : HotstuffCore) (qcBlock : BlockPtr)
    (qc : QuorumCertificate) :
    (core.updateHqc qcBlock qc).failed = core.failed := by
  rcases updateHqc_cases core qcBlock qc with ⟨-, _, -, result⟩ | ⟨-, result⟩ <;>
    rw [result]

/-- The vote that completes a quorum makes the certificate of its block certify
the block. -/
theorem Anchored.certifies_extended {core : HotstuffCore}
    (anchored : core.Anchored) {cert : PartialCertificate} {p : BlockPtr}
    {voter : ReplicaID} {extended : QuorumCertificate}
    (added : (core.block p).selfQc.addPartialCertificate voter cert =
      .ok extended)
    (good : core.GoodVote cert p voter)
    (quorum : extended.hasQuorum core.config = true) :
    (core.withVote p extended).Certifies extended p := by
  have voted := anchored.withVote added good
  have bound := anchored.tree.lt_of_placed good.placed
  have newQc := selfQc_withVote core extended bound
  have certifies := voted.certifies_selfQc (p := p)
    ((sameTree_withVote added).length ▸ bound) (by rw [newQc]; exact quorum)
  rwa [newQc] at certifies

/-- An accepted vote keeps the invariant and never fails. -/
theorem Anchored.onReceiveVote {core : HotstuffCore}
    (anchored : core.Anchored) {cert : PartialCertificate}
    {p : BlockPtr} {voter : ReplicaID} (good : core.GoodVote cert p voter) :
    (core.onReceiveVote cert p voter).Anchored ∧
      (core.onReceiveVote cert p voter).failed = core.failed := by
  rcases core.onReceiveVote_cases cert p voter with
    ⟨message, rejected, -⟩ | ⟨extended, added, outcome⟩
  · obtain ⟨_, accepted⟩ := good.added
    rw [accepted] at rejected
    cases rejected
  have voted := anchored.withVote added good
  have placed := ((sameTree_withVote added).placed p).mpr good.placed
  rcases outcome with ⟨quorum, -, result⟩ | result <;> rw [result]
  · have certifies := anchored.certifies_extended added good quorum
    exact ⟨(voted.updateHqc placed certifies).emit rfl,
      failed_updateHqc (core.withVote p extended) p extended⟩
  · exact ⟨voted, rfl⟩

/-! ### New blocks -/

/-- A block object that has just been created and verified. -/
structure FreshBlock (config : ReplicaConfig) (block : HotstuffBlock)
    (wireBlock : HotstuffBlockWire) : Prop where
  links : ∃ proposer, block.links = (HotstuffBlock.new wireBlock proposer).links
  noVotes : block.selfQc.sigs.entries = []
  undecided : block.decided = false
  verified : (QuorumCertificate.ofWire wireBlock.header.qc).verify config =
    .ok true

theorem Anchored.alloc {core : HotstuffCore} (anchored : core.Anchored)
    {block : HotstuffBlock} {wireBlock : HotstuffBlockWire}
    (fresh : FreshBlock core.config block wireBlock) :
    Anchored { core with store := (core.store.alloc block).1 } := by
  have longer := anchored.tree.extends_alloc block
  obtain ⟨proposer, links⟩ := fresh.links
  have headerEq : block.wireBlock.header = wireBlock.header :=
    congrArg HotstuffBlock.Links.header links
  refine anchored.extendStore longer (anchored.tree.alloc links) ?_ ?_ ?_
  · intro p inside entry member
    rw [BlockStore.block_alloc] at member
    split at member
    · rw [fresh.noVotes] at member
      cases member
    · rename_i old
      rw [(longer.identity p (BlockStore.lt_of_alloc inside old)).1]
      exact anchored.votesValid p (BlockStore.lt_of_alloc inside old) entry member
  · intro p notGenesis inside
    rw [BlockStore.block_alloc]
    split
    · rw [headerEq]
      exact fresh.verified
    · rename_i old
      exact anchored.verified p notGenesis (BlockStore.lt_of_alloc inside old)
  · intro p inside
    rw [BlockStore.block_alloc]
    split
    · rename_i new
      subst new
      rw [fresh.undecided]
      refine ⟨fun impossible => (Bool.false_ne_true impossible).elim, ?_⟩
      rintro ⟨passed, chain⟩
      have placed := anchored.tree.chain_placed chain anchored.execPlaced
      exact (Nat.lt_irrefl _ (anchored.tree.lt_of_placed placed)).elim
    · rename_i old
      exact anchored.decidedIff p (BlockStore.lt_of_alloc inside old)

theorem Anchored.insertBlock {core : HotstuffCore}
    (anchored : core.Anchored) {p : BlockPtr} (notGenesis : p ≠ 0)
    (bound : p < core.store.heap.length) :
    Anchored
      { core with store := (core.store.insertBlock p).1 } := by
  obtain ⟨tree, longer⟩ := anchored.tree.insertBlock notGenesis bound
  rcases BlockStore.insertBlock_cases core.store p with
    ⟨parent, justify, -, -, result, -⟩ | ⟨-, result, -⟩
  · rw [result] at tree longer ⊢
    have length := BlockStore.length_addLinked core.store p parent justify
    refine anchored.extendStore longer tree ?_ ?_ ?_
    · intro q inside entry member
      rw [length] at inside
      rw [BlockStore.property_addLinked HotstuffBlock.selfQc
        fun _ _ _ _ => rfl] at member
      rw [(longer.identity q inside).1]
      exact anchored.votesValid q inside entry member
    · intro q notZero inside
      rw [length] at inside
      rw [(longer.identity q inside).2.1]
      exact anchored.verified q notZero inside
    · intro q inside
      rw [length] at inside
      rw [BlockStore.property_addLinked HotstuffBlock.decided
        fun _ _ _ _ => rfl]
      exact anchored.decidedIff q inside
  · rw [result]
    exact anchored

theorem Anchored.freshBlock_minted {core : HotstuffCore}
    (anchored : core.Anchored) (body : Body) :
    FreshBlock core.config (core.minted body) (core.minted body).wireBlock where
  links := ⟨core.selfId, rfl⟩
  noVotes := rfl
  undecided := rfl
  verified := anchored.hqcVerified

theorem Anchored.getBlock_isSome {core : HotstuffCore}
    (anchored : core.Anchored) {p : BlockPtr}
    (placed : core.store.Placed p) :
    (core.store.getBlock (core.store.hash p)).isSome := by
  rcases placed with rfl | linked
  · rw [anchored.tree.genesis_stored]
    rfl
  · exact anchored.tree.linkedCached p linked

theorem Anchored.getJustifyHash_minted {core : HotstuffCore}
    (anchored : core.Anchored) (body : Body) :
    (core.minted body).getJustifyHash = core.store.hash core.hqc.1 :=
  (HotstuffBlock.getJustifyHash_new _ _).trans anchored.hqcHash

/-- The dependencies of a minted block are stored, so inserting it succeeds and
makes it a child of the leaf. -/
theorem Anchored.mintedStore {core : HotstuffCore}
    (anchored : core.Anchored) (body : Body) :
    (core.mintedStore body).2.any = false ∧
      core.store.Extends (core.mintedStore body).1 ∧
      Anchored { core with store := (core.mintedStore body).1 } ∧
      ∃ parent, ((core.mintedStore body).1.block
          core.store.heap.length).parentBlockPtr = some parent ∧
        (core.mintedStore body).1.hash parent = core.store.hash core.bLeaf := by
  have fresh := anchored.freshBlock_minted body
  have bound : core.store.heap.length <
      (core.store.alloc (core.minted body)).1.heap.length := by
    simp [BlockStore.alloc]
  obtain ⟨proposer, links⟩ := fresh.links
  obtain ⟨complete, appended⟩ := anchored.tree.alloc_insertBlock links
    (anchored.getBlock_isSome anchored.leafPlaced)
    (anchored.hqcHash ▸ anchored.getBlock_isSome anchored.hqcPlaced)
  exact ⟨complete, appended.longer,
    (anchored.alloc fresh).insertBlock anchored.tree.nonempty.ne' bound,
    appended.parent⟩

/-- Proposing always succeeds. -/
theorem Anchored.proposeBody_eq {core : HotstuffCore}
    (anchored : core.Anchored) (nonemptyProposal : Bool) (body : Body) :
    core.proposeBody nonemptyProposal body =
      { core with
        store := (core.mintedStore body).1
        bLeaf := core.store.heap.length
        trace :=
          [.broadcastProposal core.store.heap.length
            (core.minted body).wireBlock,
            .getNextVmBlock nonemptyProposal
              (core.store.height core.bLeaf + 1)] ++ core.trace } := by
  rcases core.proposeBody_cases nonemptyProposal body with
    ⟨missing, -⟩ | ⟨-, result⟩
  · exact (Bool.false_ne_true
      ((anchored.mintedStore body).1.symm.trans missing)).elim
  · exact result

theorem Anchored.proposeBody {core : HotstuffCore}
    (anchored : core.Anchored) (nonemptyProposal : Bool)
    (body : Body) :
    (core.proposeBody nonemptyProposal body).Anchored ∧
      (core.proposeBody nonemptyProposal body).failed = core.failed := by
  obtain ⟨-, -, inserted, parent, edge, -⟩ := anchored.mintedStore body
  rw [anchored.proposeBody_eq]
  refine ⟨?_, rfl⟩
  have extended : Anchored
      { core with
        store := (core.mintedStore body).1
        bLeaf := core.store.heap.length } :=
    { inserted with
      leafPlaced := by
        right
        rw [HotstuffBlock.Linked, edge]
        rfl }
  exact extended.addEffects _ (by simp [Effect.votedHash])

/-! ### Every event keeps the invariant -/

theorem signerValid_of_validate {config : ReplicaConfig}
    {cert : PartialCertificate} {voter : ReplicaID}
    (passed : (config.getInfo voter).toOption.any (cert.validate ·) = true) :
    QuorumCertificate.signerValid config cert.hash (voter, cert.sig) = true ∧
      voter ∈ config.ids := by
  cases found : config.getInfo voter with
  | error message =>
      rw [found] at passed
      cases passed
  | ok info =>
      have key : config.getPublickey voter = .ok info.pk := by
        rw [ReplicaConfig.getPublickey, found]
        rfl
      rw [found] at passed
      refine ⟨?_, QuorumCertificate.mem_ids_of_getPublickey key⟩
      rw [QuorumCertificate.signerValid]
      simp only [key]
      exact passed

theorem validate_of_signerValid {config : ReplicaConfig}
    {cert : PartialCertificate} {voter : ReplicaID}
    (signed : QuorumCertificate.signerValid config cert.hash
      (voter, cert.sig) = true) :
    (config.getInfo voter).toOption.any (cert.validate ·) = true := by
  rw [QuorumCertificate.signerValid, ReplicaConfig.getPublickey] at signed
  cases found : config.getInfo voter with
  | error message =>
      rw [found] at signed
      cases signed
  | ok info =>
      rw [found] at signed
      exact signed

theorem Anchored.goodVote {core : HotstuffCore}
    (anchored : core.Anchored) (configured : core.Configured)
    {cert : PartialCertificate} {p : BlockPtr} {voter : ReplicaID}
    (enabled : core.Enabled (.vote cert p voter)) :
    core.GoodVote cert p voter := by
  obtain ⟨-, found, passed⟩ := enabled
  obtain ⟨-, placed, hashEq⟩ := anchored.tree.stored_of_getBlock found
  obtain ⟨signed, member⟩ := signerValid_of_validate passed
  exact ⟨placed, hashEq.symm, signed, configured.idsSmall voter member⟩

theorem Configured.self_mem {core : HotstuffCore}
    (configured : core.Configured) : core.selfId ∈ core.config.ids := by
  have signed := configured.selfSigns zeroHash
  rw [QuorumCertificate.signerValid] at signed
  cases key : core.config.getPublickey core.selfId with
  | error message => simp [key] at signed
  | ok pk => exact QuorumCertificate.mem_ids_of_getPublickey key

theorem Anchored.placed_of_votedToSelf {core : HotstuffCore}
    (anchored : core.Anchored) {p : BlockPtr}
    (voted : core.votedToSelf p = true) : core.store.Placed p := by
  obtain ⟨effect, member, isVote⟩ := List.any_eq_true.mp voted
  cases effect with
  | doVote block cert target =>
      simp only [Bool.and_eq_true, beq_iff_eq] at isVote
      obtain ⟨rfl, -⟩ := isVote
      exact (anchored.votedPlaced block cert target member).1
  | _ => cases isVote

theorem Anchored.goodSelfVote {core : HotstuffCore}
    (anchored : core.Anchored) (configured : core.Configured)
    {p : BlockPtr} (voted : core.votedToSelf p = true) :
    core.GoodVote (PartialCertificate.sign (core.block p).getHash
      core.secretKey) p core.selfId where
  placed := anchored.placed_of_votedToSelf voted
  hashEq := rfl
  valid := configured.selfSigns _
  small := configured.idsSmall _ configured.self_mem

theorem freshBlock_received {core : HotstuffCore}
    {wireBlock : HotstuffBlockWire} {source : ReplicaID}
    (enabled : core.Enabled (.receiveBlock wireBlock source)) :
    FreshBlock core.config
      ((HotstuffBlock.receiveBlock wireBlock source).validateHotstuff
        core.config).2 wireBlock where
  links := ⟨source, HotstuffBlock.property_validateHotstuff
    HotstuffBlock.links (fun _ _ => rfl) _ _⟩
  noVotes := HotstuffBlock.property_validateHotstuff
    (fun block => block.selfQc.sigs.entries) (fun _ _ => rfl) _ _
  undecided := HotstuffBlock.property_validateHotstuff
    HotstuffBlock.decided (fun _ _ => rfl) _ _
  verified := by
    obtain ⟨-, -, passed⟩ := enabled
    refine (HotstuffBlock.validateHotstuff_new wireBlock source
      core.config).mp ?_ |>.2
    revert passed
    change (HotstuffBlock.validateHotstuff (.new wireBlock source)
      core.config).1.toOption = some true → _
    cases (HotstuffBlock.validateHotstuff (.new wireBlock source)
      core.config).1 with
    | error message => exact fun impossible => by cases impossible
    | ok result => exact fun isTrue => congrArg Except.ok (Option.some.inj isTrue)

theorem Anchored.placed_of_height {core : HotstuffCore}
    (anchored : core.Anchored) {p : BlockPtr}
    (high : core.store.height p ≠ 0) : core.store.Placed p :=
  .inr (anchored.tree.linked_of_height_pos (Nat.pos_of_ne_zero high))

theorem Anchored.step {core : HotstuffCore} (anchored : core.Anchored)
    (configured : core.Configured) {event : Event}
    (enabled : core.Enabled event) :
    (core.step event).Anchored := by
  cases event with
  | receiveBlock wireBlock source =>
      exact anchored.alloc (freshBlock_received enabled)
  | insertBlock p => exact anchored.insertBlock enabled.2.1 enabled.2.2
  | vote cert p voter =>
      exact (anchored.onReceiveVote (anchored.goodVote configured enabled)).1
  | selfVote p =>
      exact (anchored.onReceiveVote
        (anchored.goodSelfVote configured enabled.2)).1
  | proposal p proposer =>
      have placed := anchored.placed_of_height enabled.2.1
      rcases onReceiveProposal_cases anchored.tree p proposer with
        ⟨-, result⟩ | ⟨-, result⟩
      · rw [HotstuffCore.step, result]
        exact (anchored.castVote placed proposer).update p
      · rw [HotstuffCore.step, result]
        exact anchored.update p
  | doPropose body => exact (anchored.proposeBody _ body).1
  | doEmptyPropose body => exact (anchored.proposeBody _ body).1
  | garbageCollect => exact anchored.garbageCollect

end HotstuffCore

end Hotstuff
