import Hotstuff.System

/-!
# The replicas refine chained voting

As long as every inserted block justifies an ancestor, a system of replicas is
simulated by the abstract voting protocol on the forest of headers: votes are
votes, the lock is the hash of `b_lock`, and every certificate that a correct
replica holds is one of the abstract protocol.  The safety of the abstract
protocol then excludes the assertion failure of `update`.
-/

namespace Hotstuff

open Function

variable [WireTypes] [Externals]

namespace Deployment

/-- Two quorums share a correct replica when fewer than a third are faulty. -/
def WellConfigured.quorums {deployment : Deployment}
    (configured : deployment.WellConfigured) : ByzantineQuorums ReplicaID where
  replicas := deployment.config.ids
  faulty := deployment.faulty
  threshold := deployment.config.nmajority
  overlap := by
    intro first firstSub second secondSub firstLarge secondLarge
    obtain ⟨infos, built⟩ := configured.finished
    obtain ⟨-, -, -, card, majority⟩ := ReplicaConfig.build_spec built
    have counted := card_add_card_le_inter firstSub secondSub
    have few := configured.fewFaulty
    have more : deployment.faulty.card < (first ∩ second).card := by omega
    exact Finset.exists_mem_notMem_of_card_lt_card more

/-- Chained voting on the forest of headers. -/
noncomputable def WellConfigured.rules {deployment : Deployment}
    (configured : deployment.WellConfigured) (collisionFree : CollisionFree) :
    VotingRules ReplicaID Hash where
  quorums := configured.quorums
  forest := headerForest collisionFree
  justify := headerJustify

end Deployment

/-- The condition on an inserted block: its justify block is its parent or one
of the ancestors of the parent. -/
def HotstuffCore.JustifiesAncestor (collisionFree : CollisionFree)
    (core : HotstuffCore) : HotstuffCore.Event → Prop
  | .insertBlock p =>
      (core.store.getBlock (core.block p).getParentHash).isSome →
      (core.store.getBlock (core.block p).getJustifyHash).isSome →
        (headerForest collisionFree).Ancestor (core.block p).getJustifyHash
          (core.block p).getParentHash
  | _ => True

section Refinement

variable {deployment : Deployment} (configured : deployment.WellConfigured)
  (collisionFree : CollisionFree)

/-- What the certificates and commits of a replica have to do with the abstract
votes: every certificate is backed by abstract votes, blocks justify ancestors,
and every commit ended at the bottom of a certified chain of three. -/
structure Grounded (abstract : VoteState ReplicaID Hash)
    (core : HotstuffCore) : Prop where
  valid : core.Valid collisionFree
  sameConfig : core.config = deployment.config
  blocksCertified : ∀ p, p ≠ 0 → p < core.store.heap.length →
    (configured.rules collisionFree).Certified abstract
      (core.block p).wireBlock.header.qc.justify
  hqcCertified : (configured.rules collisionFree).Certified abstract
    (core.store.hash core.hqc.1)
  votesCounted : ∀ p < core.store.heap.length,
    ∀ entry ∈ (core.block p).selfQc.sigs.entries,
      entry.1 ∉ deployment.faulty →
        ∃ lock, (core.store.hash p, lock) ∈ abstract.votes entry.1
  descends : ∀ p, (core.block p).Linked →
    (headerForest collisionFree).Ancestor (core.block p).getJustifyHash
      (core.block p).getParentHash
  execHead : core.bExec = 0 ∨
    core.store.hash core.bExec ∈ core.committedHeads
  headsChained : ∀ head ∈ core.committedHeads, ∃ middle top,
    (configured.rules collisionFree).ThreeChain head middle top ∧
      (configured.rules collisionFree).Certified abstract top

/-- A replica and its part of the abstract voting state. -/
structure Tracks (abstract : VoteState ReplicaID Hash) (rid : ReplicaID)
    (core : HotstuffCore) : Prop extends
    Grounded configured collisionFree abstract core where
  sameId : core.selfId = rid
  sameKey : core.secretKey = deployment.secretKey rid
  alive : core.failed = none
  votes : (abstract.votes rid).map Prod.fst = core.votedHashes
  lock : abstract.lock rid = core.store.hash core.bLock
  voteHeights : ∀ hash ∈ core.votedHashes,
    (headerForest collisionFree).height hash ≤ core.vheight

/-- The simulation relation. -/
def Refines (state : SystemState) (abstract : VoteState ReplicaID Hash) :
    Prop :=
  ∀ rid, Tracks configured collisionFree abstract rid (state rid)

variable {configured collisionFree}

/-- Abstract steps only add votes. -/
theorem Grounded.next {abstract : VoteState ReplicaID Hash}
    {core : HotstuffCore}
    (grounded : Grounded configured collisionFree abstract core)
    (step : VotingRules.Step ReplicaID Hash) :
    Grounded configured collisionFree
      ((configured.rules collisionFree).system.next abstract step) core :=
  { grounded with
    blocksCertified := fun p notGenesis bound =>
      (grounded.blocksCertified p notGenesis bound).next step
    hqcCertified := grounded.hqcCertified.next step
    votesCounted := by
      intro p bound entry member correct
      obtain ⟨lock, vote⟩ := grounded.votesCounted p bound entry member correct
      exact ⟨lock, VotingRules.mem_votes_next step vote⟩
    headsChained := by
      intro head member
      obtain ⟨middle, top, chain, certified⟩ :=
        grounded.headsChained head member
      exact ⟨middle, top, chain, certified.next step⟩ }

theorem Tracks.start (rid : ReplicaID) :
    Tracks configured collisionFree
      { votes := fun _ => [], lock := fun _ => zeroHash } rid
      (deployment.start rid) where
  valid := .init _ _ _
  sameId := rfl
  sameConfig := rfl
  sameKey := rfl
  alive := rfl
  votes := rfl
  lock := rfl
  voteHeights := by
    intro hash member
    cases member
  blocksCertified := by
    intro p notGenesis bound
    exact (notGenesis (Nat.lt_one_iff.mp bound)).elim
  hqcCertified := .inl rfl
  votesCounted := by
    intro p bound entry member
    obtain rfl : p = 0 := Nat.lt_one_iff.mp bound
    cases member
  descends := by
    intro p linked
    have genesis : (deployment.start rid).block p = .genesisBlock := by
      cases p <;> rfl
    rw [genesis] at linked
    cases linked
  execHead := .inl rfl
  headsChained := by
    intro head member
    cases member

/-! ### Certificates -/

/-- A verifying certificate whose correct signers have voted is a certificate of
the abstract protocol. -/
theorem certified_of_verify (configured : deployment.WellConfigured)
    (collisionFree : CollisionFree) {abstract : VoteState ReplicaID Hash}
    {qc : QuorumCertificate}
    (verified : qc.verify deployment.config = .ok true)
    (voted : ∀ entry ∈ qc.sigs.entries,
      QuorumCertificate.signerValid deployment.config qc.objHash entry = true →
        entry.1 ∉ deployment.faulty →
          ∃ lock, (qc.objHash, lock) ∈ abstract.votes entry.1) :
    (configured.rules collisionFree).Certified abstract qc.objHash := by
  by_cases genesis : qc.objHash = zeroHash
  · exact .inl genesis
  · refine .inr ⟨qc.validSigners deployment.config,
      qc.validSigners_subset deployment.config,
      QuorumCertificate.quorum_of_verify verified genesis, ?_⟩
    intro rid member correct
    obtain ⟨sig, entryMem, signed⟩ := QuorumCertificate.mem_validSigners.mp member
    exact voted (rid, sig) entryMem signed correct

/-- A certificate without forged signatures that verifies. -/
theorem Refines.certified {state : SystemState}
    {abstract : VoteState ReplicaID Hash}
    (refines : Refines configured collisionFree state abstract)
    {qc : QuorumCertificate}
    (verified : qc.verify deployment.config = .ok true)
    (unforged : deployment.UnforgedQc state qc) :
    (configured.rules collisionFree).Certified abstract qc.objHash := by
  refine certified_of_verify configured collisionFree verified
    fun entry member signed correct => ?_
  have voted := unforged entry member signed correct
  rw [← (refines entry.1).votes] at voted
  obtain ⟨vote, voteMem, hashEq⟩ := List.mem_map.mp voted
  exact ⟨vote.2, hashEq ▸ voteMem⟩

section Facts

variable {abstract : VoteState ReplicaID Hash} {core : HotstuffCore}
  (grounded : Grounded configured collisionFree abstract core)

include grounded

/-- The justify block of a linked block is certified, and a proper ancestor. -/
theorem Grounded.justify_certified {p justify : BlockPtr}
    (names : (core.block p).justifyBlockPtr = some justify) :
    (configured.rules collisionFree).Certified abstract
      (core.store.hash justify) := by
  have linked := grounded.valid.tree.linked_of_justify names
  have notGenesis := grounded.valid.tree.ne_zero_of_linked linked
  have bound := BlockStore.WellFormed.lt_of_linked linked
  rw [(grounded.valid.tree.justify_stored names).2.2,
    grounded.valid.tree.getJustifyHash_eq notGenesis bound]
  exact grounded.blocksCertified p notGenesis bound

theorem Grounded.justify_ancestor {p justify : BlockPtr}
    (names : (core.block p).justifyBlockPtr = some justify) :
    (headerForest collisionFree).Ancestor (core.store.hash justify)
      (core.store.hash p) ∧
    core.store.height justify < core.store.height p := by
  have tree := grounded.valid.tree
  have linked := tree.linked_of_justify names
  obtain ⟨parent, edge, proper⟩ := tree.parent_of_linked linked
  obtain ⟨-, parentPlaced, parentHash⟩ := tree.parent_stored edge
  obtain ⟨-, justifyPlaced, justifyHash⟩ := tree.justify_stored names
  have above := grounded.descends p linked
  have parentEq : (core.block p).getParentHash = core.store.hash parent :=
    parentHash.symm
  have justifyEq : (core.block p).getJustifyHash = core.store.hash justify :=
    justifyHash.symm
  rw [justifyEq, parentEq] at above
  refine ⟨above.tail (tree.parent_edge collisionFree edge), ?_⟩
  have heights := above.height_le (tree.rooted collisionFree parentPlaced)
  rw [tree.height_eq collisionFree justifyPlaced,
    tree.height_eq collisionFree parentPlaced] at heights
  have := proper.heightEq
  omega

/-- The last executed block is certified. -/
theorem Grounded.exec_certified
    (invariant : (configured.rules collisionFree).Invariant abstract) :
    (configured.rules collisionFree).Certified abstract
      (core.store.hash core.bExec) := by
  rcases grounded.execHead with genesis | head
  · rw [genesis, grounded.valid.tree.genesis_hash]
    exact .inl rfl
  · obtain ⟨middle, top, chain, certified⟩ := grounded.headsChained _ head
    have topRooted := certified.rooted invariant
    have middleRooted :=
      (ParentForest.Ancestor.of_parent chain.topParent).rooted topRooted
    have bottomRooted :=
      (ParentForest.Ancestor.of_parent chain.middleParent).rooted middleRooted
    obtain ⟨middleHeight, topHeight⟩ := chain.height bottomRooted
    have middleCertified := certified.justified invariant chain.topJustify
      (by rintro rfl; simp at topHeight)
    exact middleCertified.justified invariant chain.middleJustify
      (by rintro rfl; simp at middleHeight)

/-- Every certified block that is at least as high as a committed head descends
from it. -/
theorem Grounded.head_ancestor
    (invariant : (configured.rules collisionFree).Invariant abstract)
    {head node : Hash} (member : head ∈ core.committedHeads)
    (certified : (configured.rules collisionFree).Certified abstract node)
    (high : (headerForest collisionFree).height head ≤
      (headerForest collisionFree).height node) :
    (headerForest collisionFree).Ancestor head node := by
  obtain ⟨middle, top, chain, topCertified⟩ := grounded.headsChained head member
  exact chain.safe invariant topCertified certified high

/-- The same for the last executed block. -/
theorem Grounded.exec_ancestor
    (invariant : (configured.rules collisionFree).Invariant abstract)
    {node : Hash}
    (certified : (configured.rules collisionFree).Certified abstract node)
    (high : core.store.height core.bExec ≤
      (headerForest collisionFree).height node) :
    (headerForest collisionFree).Ancestor (core.store.hash core.bExec)
      node := by
  rcases grounded.execHead with genesis | head
  · rw [genesis, grounded.valid.tree.genesis_hash]
    obtain ⟨level, chain⟩ := certified.rooted invariant
    exact chain.ancestor_root
  · refine grounded.head_ancestor invariant head certified ?_
    rw [grounded.valid.tree.height_eq collisionFree grounded.valid.execPlaced]
    exact high

end Facts

/-! ### Changes of the store and of the highest certificate -/

section Changes

variable {abstract : VoteState ReplicaID Hash} {core after : HotstuffCore}
  (grounded : Grounded configured collisionFree abstract core)

include grounded

/-- The commits survive every extension of the store. -/
theorem Grounded.extend (valid : after.Valid collisionFree)
    (sameConfig : after.config = core.config)
    (longer : core.store.Extends after.store)
    (sameExec : after.bExec = core.bExec)
    (sameHeads : after.committedHeads = core.committedHeads)
    (blocksCertified : ∀ p, p ≠ 0 → p < after.store.heap.length →
      (configured.rules collisionFree).Certified abstract
        (after.block p).wireBlock.header.qc.justify)
    (hqcCertified : (configured.rules collisionFree).Certified abstract
      (after.store.hash after.hqc.1))
    (votesCounted : ∀ p < after.store.heap.length,
      ∀ entry ∈ (after.block p).selfQc.sigs.entries,
        entry.1 ∉ deployment.faulty →
          ∃ lock, (after.store.hash p, lock) ∈ abstract.votes entry.1)
    (descends : ∀ p, (after.block p).Linked →
      (headerForest collisionFree).Ancestor (after.block p).getJustifyHash
        (after.block p).getParentHash) :
    Grounded configured collisionFree abstract after where
  valid := valid
  sameConfig := sameConfig.trans grounded.sameConfig
  blocksCertified := blocksCertified
  hqcCertified := hqcCertified
  votesCounted := votesCounted
  descends := descends
  execHead := by
    rw [sameExec, sameHeads, longer.hash grounded.valid.execPlaced]
    exact grounded.execHead
  headsChained := by
    rw [sameHeads]
    exact grounded.headsChained

theorem Grounded.hqc_extend (longer : core.store.Extends after.store)
    (sameHqc : after.hqc.1 = core.hqc.1) :
    (configured.rules collisionFree).Certified abstract
      (after.store.hash after.hqc.1) := by
  rw [sameHqc, longer.hash grounded.valid.hqcPlaced]
  exact grounded.hqcCertified

/-- Blocks that were linked before keep their justify and parent hashes. -/
theorem Grounded.descends_extend (longer : core.store.Extends after.store)
    {p : BlockPtr} (linked : (core.block p).Linked) :
    (headerForest collisionFree).Ancestor (after.block p).getJustifyHash
      (after.block p).getParentHash := by
  have links := longer.links p (.inr linked)
  have parsed : (after.block p).parsedQc = (core.block p).parsedQc :=
    congrArg HotstuffBlock.Links.parsedQc links
  have header : (after.block p).wireBlock.header =
      (core.block p).wireBlock.header :=
    congrArg HotstuffBlock.Links.header links
  have above := grounded.descends p linked
  rw [HotstuffBlock.getJustifyHash, HotstuffBlock.getJustifyQc,
    HotstuffBlock.getParentHash] at above ⊢
  rw [parsed, header]
  exact above

/-- A store with the same tree and the same votes. -/
theorem Grounded.sameTree (valid : after.Valid collisionFree)
    (sameConfig : after.config = core.config)
    (same : core.store.SameTree after.store)
    (selfQcEq : ∀ p, (after.block p).selfQc = (core.block p).selfQc)
    (sameExec : after.bExec = core.bExec)
    (sameHeads : after.committedHeads = core.committedHeads)
    (hqcCertified : (configured.rules collisionFree).Certified abstract
      (after.store.hash after.hqc.1)) :
    Grounded configured collisionFree abstract after := by
  refine grounded.extend valid sameConfig same.extends sameExec sameHeads ?_
    hqcCertified ?_ ?_
  · intro p notGenesis inside
    have header : (after.block p).wireBlock.header =
        (core.block p).wireBlock.header :=
      congrArg HotstuffBlock.Links.header (same.links p)
    rw [header]
    exact grounded.blocksCertified p notGenesis (same.length ▸ inside)
  · intro p inside entry member correct
    rw [selfQcEq] at member
    rw [same.hash]
    exact grounded.votesCounted p (same.length ▸ inside) entry member correct
  · intro p linked
    exact grounded.descends_extend same.extends
      ((BlockStore.linked_of_links (same.links p)).mp linked)

/-- A fresh block with a certified justify hash is allocated. -/
theorem Grounded.alloc {block : HotstuffBlock} {wireBlock : HotstuffBlockWire}
    (fresh : HotstuffCore.FreshBlock core.config block wireBlock)
    (certified : (configured.rules collisionFree).Certified abstract
      wireBlock.header.qc.justify) :
    Grounded configured collisionFree abstract
      { core with store := (core.store.alloc block).1 } := by
  have longer := grounded.valid.tree.extends_alloc block
  obtain ⟨proposer, links⟩ := fresh.links
  have headerEq : block.wireBlock.header = wireBlock.header :=
    congrArg HotstuffBlock.Links.header links
  have unlinked : block.parentBlockPtr = none :=
    congrArg HotstuffBlock.Links.parentBlockPtr links
  refine grounded.extend (grounded.valid.alloc fresh) rfl longer rfl rfl ?_
    (grounded.hqc_extend longer rfl) ?_ ?_
  · intro p notGenesis inside
    change (configured.rules collisionFree).Certified abstract
      ((core.store.alloc block).1.block p).wireBlock.header.qc.justify
    rw [BlockStore.block_alloc]
    split
    · rw [headerEq]
      exact certified
    · rename_i old
      exact grounded.blocksCertified p notGenesis (BlockStore.lt_of_alloc inside old)
  · intro p inside entry member correct
    change entry ∈ ((core.store.alloc block).1.block p).selfQc.sigs.entries
      at member
    rw [BlockStore.block_alloc] at member
    split at member
    · rw [fresh.noVotes] at member
      cases member
    · rename_i old
      have bound := BlockStore.lt_of_alloc inside old
      dsimp only
      rw [(longer.identity p bound).1]
      exact grounded.votesCounted p bound entry member correct
  · intro p linked
    change ((core.store.alloc block).1.block p).Linked at linked
    rw [BlockStore.block_alloc] at linked
    split at linked
    · rw [HotstuffBlock.Linked, unlinked] at linked
      cases linked
    · exact grounded.descends_extend longer linked

theorem Grounded.insertBlock {p : BlockPtr} (notGenesis : p ≠ 0)
    (bound : p < core.store.heap.length)
    (justifies : core.JustifiesAncestor collisionFree (.insertBlock p)) :
    Grounded configured collisionFree abstract
      { core with store := (core.store.insertBlock p).1 } := by
  have valid := grounded.valid.insertBlock notGenesis bound
  obtain ⟨-, longer⟩ := grounded.valid.tree.insertBlock notGenesis bound
  rcases BlockStore.insertBlock_cases core.store p with
    ⟨parent, justify, parentFound, justifyFound, result, -⟩ | ⟨-, result, -⟩
  swap
  · rw [result]
    exact grounded
  rw [result] at valid longer ⊢
  have length := BlockStore.length_addLinked core.store p parent justify
  refine grounded.extend valid rfl longer rfl rfl ?_
    (grounded.hqc_extend longer rfl) ?_ ?_
  · intro q notZero inside
    dsimp only at inside
    rw [length] at inside
    change (configured.rules collisionFree).Certified abstract
      ((core.store.addLinked p parent justify).block
        q).wireBlock.header.qc.justify
    rw [(longer.identity q inside).2.1]
    exact grounded.blocksCertified q notZero inside
  · intro q inside entry member correct
    dsimp only at inside
    rw [length] at inside
    change entry ∈ ((core.store.addLinked p parent justify).block
      q).selfQc.sigs.entries at member
    rw [BlockStore.property_addLinked HotstuffBlock.selfQc
      fun _ _ _ _ => rfl] at member
    dsimp only
    rw [(longer.identity q inside).1]
    exact grounded.votesCounted q inside entry member correct
  · intro q linked
    by_cases same : p = q
    · subst same
      change (headerForest collisionFree).Ancestor
        ((core.store.addLinked p parent justify).block p).getJustifyHash
        ((core.store.addLinked p parent justify).block p).getParentHash
      rw [BlockStore.property_addLinked HotstuffBlock.getJustifyHash
          fun _ _ _ _ => rfl,
        BlockStore.property_addLinked HotstuffBlock.getParentHash
          fun _ _ _ _ => rfl]
      exact justifies (Option.isSome_of_mem parentFound)
        (Option.isSome_of_mem justifyFound)
    · have unchanged : (core.store.addLinked p parent justify).block q =
          core.store.block q := by
        rw [BlockStore.block_addLinked, if_neg fun both => same both.1]
      change ((core.store.addLinked p parent justify).block q).Linked at linked
      rw [unchanged] at linked
      exact grounded.descends_extend longer linked

/-- Raising the highest certificate to a certified block. -/
theorem Grounded.updateHqc {qcBlock : BlockPtr} {qc : QuorumCertificate}
    (placed : core.store.Placed qcBlock) (certifies : core.Certifies qc qcBlock)
    (certified : (configured.rules collisionFree).Certified abstract
      (core.store.hash qcBlock)) :
    Grounded configured collisionFree abstract (core.updateHqc qcBlock qc) := by
  have valid := grounded.valid.updateHqc placed certifies
  rcases core.updateHqc_cases qcBlock qc with
    ⟨-, effects, silent, result⟩ | ⟨-, result⟩
  · rw [result] at valid ⊢
    have noHeads : effects.filterMap Effect.committedHead = [] := by
      refine List.filterMap_eq_nil_iff.mpr fun effect member => ?_
      rw [silent effect member]
      rfl
    refine grounded.sameTree valid rfl (.refl core.store) (fun _ => rfl) rfl ?_
      certified
    simp [HotstuffCore.committedHeads, List.filterMap_append, noHeads]
  · rw [result]
    exact grounded

/-- A vote whose signer, if correct, has voted for the block. -/
theorem Grounded.onReceiveVote {cert : PartialCertificate} {p : BlockPtr}
    {voter : ReplicaID} (good : core.GoodVote cert p voter)
    (voted : voter ∉ deployment.faulty →
      ∃ lock, (core.store.hash p, lock) ∈ abstract.votes voter) :
    Grounded configured collisionFree abstract
      (core.onReceiveVote cert p voter) := by
  rcases core.onReceiveVote_cases cert p voter with
    ⟨message, rejected, -⟩ | ⟨extended, added, outcome⟩
  · obtain ⟨_, accepted⟩ := good.added
    rw [accepted] at rejected
    cases rejected
  have same := HotstuffCore.sameTree_withVote added
  have bound := grounded.valid.tree.lt_of_placed good.placed
  -- First the state in which only the vote is recorded.
  have counted : Grounded configured collisionFree abstract
      (core.withVote p extended) := by
    refine grounded.extend (grounded.valid.withVote added good) rfl
      same.extends rfl rfl ?_ (grounded.hqc_extend same.extends rfl) ?_ ?_
    · intro q notGenesis inside
      have header : ((core.withVote p extended).block q).wireBlock.header =
          (core.block q).wireBlock.header :=
        congrArg HotstuffBlock.Links.header (same.links q)
      rw [header]
      exact grounded.blocksCertified q notGenesis (same.length ▸ inside)
    · intro q inside entry member correct
      have inside' : q < core.store.heap.length := same.length ▸ inside
      rw [same.hash]
      rw [HotstuffCore.block, HotstuffCore.withVote,
        BlockStore.block_modifyBlock] at member
      split at member
      · rename_i both
        obtain ⟨rfl, -⟩ := both
        rcases (QuorumCertificate.addPartialCertificate_cases added).2 entry
          member with old | rfl
        · exact grounded.votesCounted p inside' entry old correct
        · exact voted correct
      · exact grounded.votesCounted q inside' entry member correct
    · intro q linked
      exact grounded.descends_extend same.extends
        ((BlockStore.linked_of_links (same.links q)).mp linked)
  rcases outcome with ⟨quorum, -, result⟩ | result
  swap
  · rw [result]
    exact counted
  -- The completed certificate is one of the abstract protocol.
  have newQc := HotstuffCore.selfQc_withVote core extended bound
  have certifies :=
    grounded.valid.anchored.certifies_extended added good quorum
  have certified : (configured.rules collisionFree).Certified abstract
      ((core.withVote p extended).store.hash p) := by
    have verified := certifies.verified
    rw [counted.sameConfig] at verified
    have certified := certified_of_verify configured collisionFree verified
      fun entry member _ correct => by
        rw [certifies.objHash]
        rw [← newQc] at member
        exact counted.votesCounted p (same.length ▸ bound) entry member correct
    rwa [certifies.objHash] at certified
  have raised := counted.updateHqc ((same.placed p).mpr good.placed) certifies
    certified
  rw [result]
  exact { raised with valid := raised.valid.emit rfl rfl }

/-- A minted block carries the highest certificate and extends the leaf. -/
theorem Grounded.proposeBody (nonemptyProposal : Bool) (body : Body) :
    Grounded configured collisionFree abstract
      (core.proposeBody nonemptyProposal body) := by
  have proposed := grounded.valid.proposeBody nonemptyProposal body
  have allocated := grounded.alloc
    (grounded.valid.anchored.freshBlock_minted body) (by
      rw [show (core.minted body).wireBlock.header.qc.justify =
        core.store.hash core.hqc.1 from grounded.valid.hqcHash]
      exact grounded.hqcCertified)
  have newBlock : (core.store.alloc (core.minted body)).1.block
      core.store.heap.length = core.minted body := by
    rw [BlockStore.block_alloc, if_pos rfl]
  have inserted := allocated.insertBlock (p := core.store.heap.length)
    grounded.valid.tree.nonempty.ne' (by simp [BlockStore.alloc]) (by
      intro _ _
      change (headerForest collisionFree).Ancestor
        ((core.store.alloc (core.minted body)).1.block
          core.store.heap.length).getJustifyHash
        ((core.store.alloc (core.minted body)).1.block
          core.store.heap.length).getParentHash
      rw [newBlock, grounded.valid.anchored.getJustifyHash_minted body]
      exact grounded.valid.leafExtends)
  rw [grounded.valid.anchored.proposeBody_eq] at proposed ⊢
  exact { inserted with valid := proposed }

theorem Grounded.castVote {bnew : BlockPtr} (placed : core.store.Placed bnew)
    (proposer : ReplicaID) :
    Grounded configured collisionFree abstract (core.castVote bnew proposer) :=
  { grounded with valid := grounded.valid.castVote placed proposer }

theorem Grounded.lockAndWrite {blk1 : BlockPtr}
    (placed : core.store.Placed blk1) (stored : core.store.Stored blk1) :
    Grounded configured collisionFree abstract (core.lockAndWrite blk1) := by
  have same := core.sameTree_lockAndWrite blk1
  have noHeads : (((core.writtenLock (core.raisedLock blk1)).2.map
      Effect.saveBlock).reverse).filterMap Effect.committedHead = [] := by
    refine List.filterMap_eq_nil_iff.mpr fun effect member => ?_
    obtain ⟨wireBlock, -, rfl⟩ := List.mem_map.mp (List.mem_reverse.mp member)
    rfl
  refine grounded.sameTree (grounded.valid.lockAndWrite placed stored) rfl same
    (HotstuffCore.property_lockAndWrite HotstuffBlock.selfQc (fun _ => rfl)
      core blk1) rfl ?_ (grounded.hqc_extend same.extends rfl)
  rw [HotstuffCore.committedHeads, HotstuffCore.lockAndWrite,
    List.filterMap_append, noHeads]
  rfl

/-- Three blocks linked by parents and certificates are a chain of three in the
forest of headers. -/
theorem Grounded.threeChain {blk2 blk1 blk : BlockPtr}
    (names1 : (core.block blk2).justifyBlockPtr = some blk1)
    (names : (core.block blk1).justifyBlockPtr = some blk)
    (parent2 : (core.block blk2).parentBlockPtr = some blk1)
    (parent1 : (core.block blk1).parentBlockPtr = some blk) :
    (configured.rules collisionFree).ThreeChain (core.store.hash blk)
      (core.store.hash blk1) (core.store.hash blk2) where
  topParent := grounded.valid.tree.parent_edge collisionFree parent2
  topJustify := grounded.valid.tree.justify_edge collisionFree names1
  middleParent := grounded.valid.tree.parent_edge collisionFree parent1
  middleJustify := grounded.valid.tree.justify_edge collisionFree names

/-- The commit loop always ends at the last executed block. -/
theorem Grounded.walk_exec
    (invariant : (configured.rules collisionFree).Invariant abstract)
    {nblk blk2 blk1 blk : BlockPtr}
    (names2 : (core.block nblk).justifyBlockPtr = some blk2)
    (names1 : (core.block blk2).justifyBlockPtr = some blk1)
    (names : (core.block blk1).justifyBlockPtr = some blk)
    (parent2 : (core.block blk2).parentBlockPtr = some blk1)
    (parent1 : (core.block blk1).parentBlockPtr = some blk)
    (open0 : (core.block blk).decided = false) :
    ∃ commitQueue, core.store.walk (core.store.height core.bExec)
      (core.store.height blk) blk = some (commitQueue, core.bExec) := by
  have tree := grounded.valid.tree
  have chain := grounded.threeChain names1 names parent2 parent1
  have topCertified := grounded.justify_certified names2
  obtain ⟨stored, placed, -⟩ := tree.justify_stored names
  have execHeight := tree.height_eq collisionFree grounded.valid.execPlaced
  have blkHeight := tree.height_eq collisionFree placed
  rcases Nat.le_total (core.store.height blk) (core.store.height core.bExec)
    with low | high
  · -- A block not above the last executed one has been decided with it.
    have above := chain.safe invariant topCertified
      (grounded.exec_certified invariant)
      (show (headerForest collisionFree).height _ ≤
        (headerForest collisionFree).height _ by
        rw [blkHeight, execHeight]; exact low)
    obtain ⟨passed, decided⟩ := tree.chain_of_ancestor collisionFree
      grounded.valid.execStored grounded.valid.execPlaced stored above
    have isDecided := (grounded.valid.decidedIff blk
      (tree.lt_of_placed placed)).mpr ⟨passed, decided⟩
    rw [open0] at isDecided
    cases isDecided
  · have above := grounded.exec_ancestor invariant
      (grounded.justify_certified names) (by rw [blkHeight]; exact high)
    obtain ⟨passed, last, walked, lastChain, lastHeight, -⟩ :=
      tree.walk_spec high
    have lastPlaced := tree.chain_placed lastChain placed
    have lastAbove := tree.chain_ancestor collisionFree lastChain
    have lastLevel := tree.level collisionFree lastPlaced
    rw [lastHeight] at lastLevel
    have sameHash : core.store.hash last = core.store.hash core.bExec :=
      (lastAbove.of_level_le above lastLevel
        (tree.level collisionFree grounded.valid.execPlaced)
        (Nat.le_refl _)).eq_of_level lastLevel
          (tree.level collisionFree grounded.valid.execPlaced)
    rw [BlockStore.WellFormed.stored_unique
      (tree.chain_stored lastChain stored) grounded.valid.execStored
      sameHash] at walked
    exact ⟨passed, walked⟩

/-- Committing the bottom of a certified chain of three. -/
theorem Grounded.commit {commitQueue : List BlockPtr} {blk : BlockPtr}
    {qc : QuorumCertificate} {middle top : Hash}
    (ready : core.CommitReady commitQueue blk)
    (objHash : qc.objHash = core.store.hash blk)
    (chain : (configured.rules collisionFree).ThreeChain (core.store.hash blk)
      middle top)
    (certified : (configured.rules collisionFree).Certified abstract top) :
    Grounded configured collisionFree abstract
      (core.commit commitQueue blk qc) := by
  have valid := grounded.valid.commit qc ready
  have walked := ready.chain
  have nodup := grounded.valid.tree.chain_nodup walked
  have bound : ∀ p ∈ commitQueue, p < core.store.heap.length :=
    fun p member =>
      BlockStore.WellFormed.lt_of_linked (walked.linked_of_mem member)
  obtain ⟨pruneHeight, committedHeight, result⟩ :=
    core.commit_eq commitQueue blk qc nodup bound
  have sameStore := core.sameTree_commit commitQueue blk qc nodup bound
  have heads : (core.commit commitQueue blk qc).committedHeads =
      core.store.hash blk :: core.committedHeads := by
    rw [core.committedHeads_commit commitQueue blk qc nodup bound, objHash]
  have links (p : BlockPtr) :
      ((core.commit commitQueue blk qc).block p).links =
        (core.block p).links :=
    sameStore.links p
  exact
    { valid := valid
      sameConfig := by
        rw [result]
        exact grounded.sameConfig
      blocksCertified := by
        intro p notGenesis inside
        have header : ((core.commit commitQueue blk qc).block
            p).wireBlock.header = (core.block p).wireBlock.header :=
          congrArg HotstuffBlock.Links.header (links p)
        rw [header]
        exact grounded.blocksCertified p notGenesis
          (sameStore.length ▸ inside)
      hqcCertified := grounded.hqc_extend sameStore.extends (by rw [result])
      votesCounted := by
        intro p inside entry member correct
        have selfQc : ((core.commit commitQueue blk qc).block p).selfQc =
            (core.block p).selfQc := by
          rw [result]
          exact HotstuffCore.property_decideBlocks HotstuffBlock.selfQc
            (fun _ => rfl) core.store commitQueue.reverse p
        rw [selfQc] at member
        rw [sameStore.hash]
        exact grounded.votesCounted p (sameStore.length ▸ inside) entry member
          correct
      descends := fun p linked => grounded.descends_extend sameStore.extends
        ((BlockStore.linked_of_links (links p)).mp linked)
      execHead := by
        right
        rw [heads, sameStore.hash, result]
        exact List.mem_cons_self
      headsChained := by
        intro head member
        rw [heads] at member
        rcases List.mem_cons.mp member with rfl | old
        · exact ⟨middle, top, chain, certified⟩
        · exact grounded.headsChained head old }

end Changes

/-! ### Proposals -/

/-- Where `update` may leave the lock: where it was, or on a certified block;
never lower; and not below the block that is certified twice by the proposal. -/
structure LockMoves (core after : HotstuffCore) (nblk : BlockPtr) : Prop where
  tree : core.store.SameTree after.store
  choice : after.bLock = core.bLock ∨
    ∃ p, (core.block p).justifyBlockPtr = some after.bLock
  higher : core.store.height core.bLock ≤ core.store.height after.bLock
  covers : ∀ blk2 blk1, (core.block nblk).justifyBlockPtr = some blk2 →
    (core.block blk2).justifyBlockPtr = some blk1 →
      core.store.height blk1 ≤ core.store.height after.bLock
  vheight : after.vheight = core.vheight
  alive : after.failed = core.failed

section Update

variable {abstract : VoteState ReplicaID Hash} {core : HotstuffCore}
  (grounded : Grounded configured collisionFree abstract core)

include grounded

/-- Decided blocks are not above the lock. -/
theorem Grounded.decided_below {p : BlockPtr} (placed : core.store.Placed p)
    (decided : (core.block p).decided = true) :
    core.store.height p ≤ core.store.height core.bLock := by
  have tree := grounded.valid.tree
  obtain ⟨passed, chain⟩ := (grounded.valid.decidedIff p
    (tree.lt_of_placed placed)).mp decided
  have heights := tree.chain_height chain
  rcases grounded.valid.execBelowLock with genesis | below
  · have zero := tree.genesis_height
    rw [genesis] at heights
    omega
  · omega

theorem Grounded.lockMoves_skip {nblk : BlockPtr}
    (reason : ∀ blk2, (core.block nblk).justifyBlockPtr = some blk2 →
      (core.block blk2).decided = true) :
    LockMoves core core nblk where
  tree := .refl core.store
  choice := .inl rfl
  higher := Nat.le_refl _
  covers := by
    intro blk2 blk1 names2 names1
    have below := grounded.decided_below
      (grounded.valid.tree.justify_stored names2).2.1 (reason blk2 names2)
    have lower := (grounded.justify_ancestor names1).2
    omega
  vheight := rfl
  alive := rfl

theorem Grounded.lockMoves_certificate {nblk blk2 : BlockPtr}
    (names2 : (core.block nblk).justifyBlockPtr = some blk2)
    (reason : ∀ blk1, (core.block blk2).justifyBlockPtr = some blk1 →
      (core.block blk1).decided = true) (qc : QuorumCertificate) :
    LockMoves core (core.updateHqc blk2 qc) nblk where
  tree := by
    rw [HotstuffCore.updateHqc_store]
    exact .refl core.store
  choice := .inl (HotstuffCore.updateHqc_bLock core blk2 qc)
  higher := by rw [HotstuffCore.updateHqc_bLock]
  covers := by
    intro other blk1 otherNames names1
    obtain rfl : blk2 = other := Option.some.inj (names2.symm.trans otherNames)
    rw [HotstuffCore.updateHqc_bLock]
    exact grounded.decided_below
      (grounded.valid.tree.justify_stored names1).2.1 (reason blk1 names1)
  vheight := HotstuffCore.updateHqc_vheight core blk2 qc
  alive := HotstuffCore.failed_updateHqc core blk2 qc

omit grounded in
theorem lockMoves_lock {nblk blk2 blk1 : BlockPtr}
    (names2 : (core.block nblk).justifyBlockPtr = some blk2)
    (names1 : (core.block blk2).justifyBlockPtr = some blk1)
    (qc : QuorumCertificate) :
    LockMoves core ((core.updateHqc blk2 qc).lockAndWrite blk1) nblk := by
  obtain ⟨higher, raised, choice⟩ :=
    (core.updateHqc blk2 qc).raisedLock_cases blk1
  have same := (core.updateHqc blk2 qc).sameTree_lockAndWrite blk1
  simp only [HotstuffCore.updateHqc_store, HotstuffCore.updateHqc_bLock]
    at higher raised choice same
  refine ⟨same, ?_, higher, ?_, HotstuffCore.updateHqc_vheight core blk2 qc,
    HotstuffCore.failed_updateHqc core blk2 qc⟩
  · rcases choice with new | old
    · exact .inr ⟨blk2, names1.trans (congrArg some new.symm)⟩
    · exact .inl old
  · intro other other1 otherNames otherNames1
    obtain rfl : blk2 = other := Option.some.inj (names2.symm.trans otherNames)
    obtain rfl : blk1 = other1 :=
      Option.some.inj (names1.symm.trans otherNames1)
    exact raised

omit grounded in
/-- Committing does not move the lock. -/
theorem LockMoves.commit {middle : HotstuffCore} {nblk blk : BlockPtr}
    {commitQueue : List BlockPtr} (moves : LockMoves core middle nblk)
    (qc : QuorumCertificate) (nodup : commitQueue.Nodup)
    (bound : ∀ p ∈ commitQueue, p < middle.store.heap.length) :
    LockMoves core (middle.commit commitQueue blk qc) nblk := by
  have tree := moves.tree.trans
    (middle.sameTree_commit commitQueue blk qc nodup bound)
  obtain ⟨_, _, result⟩ := middle.commit_eq commitQueue blk qc nodup bound
  rw [result] at tree ⊢
  exact ⟨tree, moves.choice, moves.higher, moves.covers, moves.vheight,
    moves.alive⟩

/-- `update` keeps certificates and commits grounded, and never fails. -/
theorem Grounded.update
    (invariant : (configured.rules collisionFree).Invariant abstract)
    (nblk : BlockPtr) :
    Grounded configured collisionFree abstract (core.update nblk) ∧
      LockMoves core (core.update nblk) nblk := by
  have afterCertificate {blk2 : BlockPtr}
      (names2 : (core.block nblk).justifyBlockPtr = some blk2) :
      Grounded configured collisionFree abstract
        (core.updateHqc blk2 (core.block nblk).getJustifyQc) := by
    obtain ⟨-, placed, certifies⟩ :=
      grounded.valid.anchored.certifies_justify names2
    exact grounded.updateHqc placed certifies
      (grounded.justify_certified names2)
  have afterLock {blk2 blk1 : BlockPtr}
      (names2 : (core.block nblk).justifyBlockPtr = some blk2)
      (names1 : (core.block blk2).justifyBlockPtr = some blk1) :
      Grounded configured collisionFree abstract
        ((core.updateHqc blk2 (core.block nblk).getJustifyQc).lockAndWrite
          blk1) := by
    obtain ⟨stored, placed, -⟩ :=
      grounded.valid.anchored.certifies_justify names1
    exact (afterCertificate names2).lockAndWrite
      (by rwa [HotstuffCore.updateHqc_store])
      (by rwa [HotstuffCore.updateHqc_store])
  have outcome := core.update_result nblk
  generalize core.update nblk = after at outcome ⊢
  cases outcome with
  | skip reason => exact ⟨grounded, grounded.lockMoves_skip reason⟩
  | certificate names2 _ reason =>
      exact ⟨afterCertificate names2,
        grounded.lockMoves_certificate names2 reason _⟩
  | lock names2 _ names1 =>
      exact ⟨afterLock names2 names1, lockMoves_lock names2 names1 _⟩
  | fail names2 _ names1 _ names open0 parent2 parent1 reason =>
      obtain ⟨commitQueue, walked⟩ := grounded.walk_exec invariant names2 names1
        names parent2 parent1 open0
      rcases reason with ⟨-, noResult⟩ | ⟨-, queue, last, other, breached⟩
      · rw [walked] at noResult
        cases noResult
      · obtain ⟨-, arrived⟩ :=
          Prod.mk.inj (Option.some.inj (walked.symm.trans other))
        exact (breached arrived.symm).elim
  | @commit blk2 blk1 blk commitQueue names2 _ names1 _ names _ parent2 parent1
      walked =>
      have locked := afterLock names2 names1
      have moves := lockMoves_lock names2 names1 (core.block nblk).getJustifyQc
      have same := moves.tree
      have tree := grounded.valid.tree
      obtain ⟨-, -, certifies⟩ :=
        grounded.valid.anchored.certifies_justify names
      obtain ⟨chain, -, -⟩ := BlockStore.walk_cases walked
      have three := grounded.threeChain names1 names parent2 parent1
      rw [← same.hash blk] at three
      refine ⟨locked.commit
        (grounded.valid.anchored.commitReady _ names parent1 walked) ?_ three
        (grounded.justify_certified names2),
        moves.commit _ (tree.chain_nodup chain) fun p member => same.length ▸
          BlockStore.WellFormed.lt_of_linked (chain.linked_of_mem member)⟩
      rw [same.hash]
      exact certifies.objHash

end Update

end Refinement

end Hotstuff
