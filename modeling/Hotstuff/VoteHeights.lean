import Hotstuff.Replica

/-!
# The heights of the votes of one replica

A replica remembers the height of its last vote in `vheight` and votes only
above it.  As long as heights fit into the 32 bits of `vheight`, the heights of
the votes of a run are strictly increasing.  This needs no assumption on keys
or hashes: it is a property of the block tree and of `on_receive_proposal`.

A height that does not fit is cut off.  After a vote at height `2 ^ 32` the
replica votes for a block at height one again.
-/

namespace Hotstuff

section Votes

variable [WireTypes]

/-! ### Blocks of increasing heights -/

namespace BlockStore

/-- The blocks, newest first, are in the tree, at increasing heights up to a
bound. -/
structure Climbing (store : BlockStore) (blocks : List BlockPtr)
    (bound : Nat) : Prop where
  placed : ∀ p ∈ blocks, store.Placed p
  bounded : ∀ p ∈ blocks, store.height p ≤ bound
  increasing : blocks.Pairwise fun newer older =>
    store.height older < store.height newer

theorem climbing_nil (store : BlockStore) (bound : Nat) :
    store.Climbing [] bound := by
  refine ⟨?_, ?_, .nil⟩ <;> intro p member <;> cases member

theorem Climbing.extend {store larger : BlockStore} {blocks : List BlockPtr}
    {bound higher : Nat} (climbing : store.Climbing blocks bound)
    (longer : store.Extends larger) (above : bound ≤ higher) :
    larger.Climbing blocks higher := by
  have heights : ∀ p ∈ blocks, larger.height p = store.height p := by
    intro p member
    exact longer.height (climbing.placed p member)
  constructor
  · intro p member
    exact longer.placed (climbing.placed p member)
  · intro p member
    rw [heights p member]
    exact (climbing.bounded p member).trans above
  · apply climbing.increasing.imp_of_mem
    intro newer older newerMem olderMem less
    rwa [heights newer newerMem, heights older olderMem]

theorem Climbing.cons {store : BlockStore} {blocks : List BlockPtr}
    {bound : Nat} (climbing : store.Climbing blocks bound) {p : BlockPtr}
    (placed : store.Placed p) (above : bound < store.height p) :
    store.Climbing (p :: blocks) (store.height p) := by
  constructor
  · intro q member
    rcases List.mem_cons.mp member with rfl | older
    · exact placed
    · exact climbing.placed q older
  · intro q member
    rcases List.mem_cons.mp member with rfl | older
    · exact Nat.le_refl _
    · exact (climbing.bounded q older).trans above.le
  · apply List.pairwise_cons.mpr
    refine ⟨?_, climbing.increasing⟩
    intro q older
    exact (climbing.bounded q older).trans_lt above

theorem Climbing.eq_of_height {store : BlockStore} {blocks : List BlockPtr}
    {bound : Nat} (climbing : store.Climbing blocks bound) {p q : BlockPtr}
    (pMem : p ∈ blocks) (qMem : q ∈ blocks)
    (same : store.height p = store.height q) : p = q := by
  rcases pairwise_of_mem climbing.increasing pMem qMem with
    less | equal | less
  · omega
  · exact equal
  · omega

end BlockStore

/-! ### What one event does to the votes -/

variable [Externals]

/-- The block passed to `do_vote`. -/
def Effect.votedBlock : Effect → Option BlockPtr
  | .doVote block _ _ => some block
  | _ => none

namespace HotstuffCore

/-- The blocks passed to `do_vote`, newest first. -/
def votedBlocks (core : HotstuffCore) : List BlockPtr :=
  core.trace.filterMap Effect.votedBlock

/-- No vote is cast. -/
structure KeepsVotes (core after : HotstuffCore) : Prop where
  vheight : after.vheight = core.vheight
  votedBlocks : after.votedBlocks = core.votedBlocks

omit [Externals] in
theorem Internal.votedBlocks {core after : HotstuffCore}
    (internal : Internal core after) :
    after.votedBlocks = core.votedBlocks := by
  apply internal.filterMap_trace
  intro effect notSent
  cases effect <;> simp_all [Effect.isSent, Effect.votedBlock]

theorem vheight_commit (core : HotstuffCore) (commitQueue : List BlockPtr)
    (blk : BlockPtr) (qc : QuorumCertificate) :
    (core.commit commitQueue blk qc).vheight = core.vheight :=
  property_foldl_commitBlock vheight (fun _ _ => rfl) core commitQueue.reverse

theorem keepsVotes_update (core : HotstuffCore) (nblk : BlockPtr) :
    KeepsVotes core (core.update nblk) := by
  refine ⟨?_, (internal_update core nblk).votedBlocks⟩
  have outcome := update_result core nblk
  generalize core.update nblk = after at outcome ⊢
  cases outcome with
  | skip => rfl
  | certificate => exact updateHqc_vheight core _ _
  | lock => exact updateHqc_vheight core _ _
  | fail => exact updateHqc_vheight core _ _
  | commit =>
      exact (vheight_commit _ _ _ _).trans (updateHqc_vheight core _ _)

theorem keepsVotes_onReceiveVote (core : HotstuffCore)
    (cert : PartialCertificate) (p : BlockPtr) (voter : ReplicaID) :
    KeepsVotes core (core.onReceiveVote cert p voter) := by
  refine ⟨?_, (internal_onReceiveVote core cert p voter).votedBlocks⟩
  rcases core.onReceiveVote_cases cert p voter with
    ⟨message, -, result⟩ | ⟨extended, -, ⟨-, -, result⟩ | result⟩ <;>
    rw [result]
  · rfl
  · exact updateHqc_vheight (core.withVote p extended) p extended
  · rfl

theorem keepsVotes_proposeBody (core : HotstuffCore) (nonemptyProposal : Bool)
    (body : Body) :
    KeepsVotes core (core.proposeBody nonemptyProposal body) := by
  rcases core.proposeBody_cases nonemptyProposal body with
    ⟨-, result⟩ | ⟨-, result⟩ <;> rw [result] <;> exact ⟨rfl, rfl⟩

/-- An event casts no vote, or it is a proposal and the vote is for a block
above `vheight`, whose height is remembered. -/
theorem votes_step {core : HotstuffCore} (tree : core.store.WellFormed)
    (event : Event) :
    KeepsVotes core (core.step event) ∨
      ∃ p proposer, event = .proposal p proposer ∧
        core.vheight < core.store.height p ∧
        (core.step event).vheight = core.store.height p % 2 ^ 32 ∧
        (core.step event).votedBlocks = p :: core.votedBlocks := by
  cases event with
  | receiveBlock wireBlock source => exact .inl ⟨rfl, rfl⟩
  | insertBlock p => exact .inl ⟨rfl, rfl⟩
  | vote cert p voter => exact .inl (keepsVotes_onReceiveVote _ _ _ _)
  | selfVote p => exact .inl (keepsVotes_onReceiveVote _ _ _ _)
  | proposal p proposer =>
      rcases onReceiveProposal_cases tree p proposer with
        ⟨favourable, result⟩ | ⟨-, result⟩ <;> rw [step, result]
      · have updated := keepsVotes_update (core.castVote p proposer) p
        exact .inr ⟨p, proposer, rfl, (opinion_true favourable).1,
          updated.vheight, updated.votedBlocks⟩
      · exact .inl (keepsVotes_update core p)
  | doPropose body => exact .inl (keepsVotes_proposeBody _ _ _)
  | doEmptyPropose body => exact .inl (keepsVotes_proposeBody _ _ _)
  | garbageCollect => exact .inl ⟨rfl, rfl⟩

/-! ### Votes along a run -/

/-- The votes so far are for blocks of the tree, at increasing heights up to
`vheight`. -/
structure VotesIncrease (core : HotstuffCore) : Prop where
  tree : core.store.WellFormed
  placed : ∀ p ∈ core.votedBlocks, core.store.Placed p
  bounded : ∀ p ∈ core.votedBlocks, core.store.height p ≤ core.vheight
  increasing : core.votedBlocks.Pairwise fun newer older =>
    core.store.height older < core.store.height newer

/-- The proposed block has a height that fits into `vheight`. -/
def ProposalFits (core : HotstuffCore) : Event → Prop
  | .proposal p _ => core.store.height p < 2 ^ 32
  | _ => True

instance decidableProposalFits (core : HotstuffCore) :
    (event : Event) → Decidable (core.ProposalFits event)
  | .receiveBlock _ _ => inferInstanceAs (Decidable True)
  | .insertBlock _ => inferInstanceAs (Decidable True)
  | .vote _ _ _ => inferInstanceAs (Decidable True)
  | .selfVote _ => inferInstanceAs (Decidable True)
  | .proposal _ _ => inferInstanceAs (Decidable (_ < _))
  | .doPropose _ => inferInstanceAs (Decidable True)
  | .doEmptyPropose _ => inferInstanceAs (Decidable True)
  | .garbageCollect => inferInstanceAs (Decidable True)

theorem VotesIncrease.climbing {core : HotstuffCore}
    (votes : core.VotesIncrease) :
    core.store.Climbing core.votedBlocks core.vheight :=
  ⟨votes.placed, votes.bounded, votes.increasing⟩

theorem VotesIncrease.step {core : HotstuffCore} (votes : core.VotesIncrease)
    {event : Event} (enabled : core.Enabled event)
    (fits : core.ProposalFits event) : (core.step event).VotesIncrease := by
  obtain ⟨tree, longer⟩ := grows_step votes.tree enabled
  rcases votes_step votes.tree event with
    kept | ⟨p, proposer, rfl, higher, vheight, voted⟩
  · have climbing :=
      votes.climbing.extend longer (Nat.le_of_eq kept.vheight.symm)
    rw [← kept.votedBlocks] at climbing
    exact ⟨tree, climbing.placed, climbing.bounded, climbing.increasing⟩
  -- The new vote is above `vheight`, hence above all older ones.
  have placed : core.store.Placed p :=
    .inr (votes.tree.linked_of_height_pos (by omega))
  have remembered : (core.step (.proposal p proposer)).vheight =
      core.store.height p := by
    rw [vheight]
    exact Nat.mod_eq_of_lt fits
  have climbing := (votes.climbing.cons placed higher).extend longer
    (Nat.le_of_eq remembered.symm)
  rw [← voted] at climbing
  exact ⟨tree, climbing.placed, climbing.bounded, climbing.increasing⟩

/-- Nothing is locked, so a block above `vheight` gets a vote. -/
theorem opinion_of_genesis_lock {core : HotstuffCore}
    (tree : core.store.WellFormed) (unlocked : core.bLock = 0)
    {p : BlockPtr} (higher : core.vheight < core.store.height p) :
    core.opinion p = some true := by
  have linked := tree.linked_of_height_pos (p := p) (by omega)
  obtain ⟨parent, -, proper⟩ := tree.parent_of_linked linked
  obtain ⟨justify, names, -⟩ := proper.justifyStored
  obtain ⟨passed, last, walked, chain, low, -⟩ :=
    tree.walk_spec (Nat.zero_le (core.store.height p))
  obtain rfl := tree.eq_genesis (tree.chain_placed chain (.inr linked)) low
  rw [opinion, if_pos higher, block, names, unlocked, tree.genesis_height,
    walked]
  simp

/-- Nothing has been certified: all blocks justify genesis. -/
structure Uncertified (core : HotstuffCore) : Prop where
  hqcGenesis : core.hqc.1 = 0
  unlocked : core.bLock = 0
  justifies : ∀ p < core.store.heap.length,
    (core.block p).wireBlock.header.qc.justify = zeroHash

variable {collisionFree : CollisionFree}

/-- A proposal at a new height then only leads to a vote. -/
theorem Uncertified.step_proposal {core : HotstuffCore}
    (uncertified : core.Uncertified) (valid : core.Valid collisionFree)
    {p : BlockPtr} (higher : core.vheight < core.store.height p)
    (proposer : ReplicaID) :
    core.step (.proposal p proposer) = core.castVote p proposer := by
  have linked := valid.tree.linked_of_height_pos (p := p) (by omega)
  obtain ⟨parent, -, proper⟩ := valid.tree.parent_of_linked linked
  obtain ⟨justify, names, -⟩ := proper.justifyStored
  have bound := BlockStore.WellFormed.lt_of_linked linked
  obtain ⟨stored, -, hashEq⟩ := valid.tree.justify_stored names
  have justifyHash : core.store.hash justify = core.store.hash 0 := by
    rw [hashEq, valid.tree.getJustifyHash_eq
      (valid.tree.ne_zero_of_linked linked) bound, valid.tree.genesis_hash]
    exact uncertified.justifies p bound
  obtain rfl : justify = 0 := BlockStore.WellFormed.stored_unique stored
    valid.tree.genesis_stored justifyHash
  obtain ⟨passed, chain, -⟩ := valid.tree.chain_genesis valid.execPlaced
  have decided : (core.block 0).decided = true :=
    (valid.decidedIff 0 valid.tree.nonempty).mpr ⟨passed, chain⟩
  have favourable :=
    opinion_of_genesis_lock valid.tree uncertified.unlocked higher
  rcases onReceiveProposal_cases valid.tree p proposer with
    ⟨-, result⟩ | ⟨unfavourable, -⟩
  · have names' : ((core.castVote p proposer).block p).justifyBlockPtr =
        some 0 := names
    have decided' : ((core.castVote p proposer).block 0).decided = true :=
      decided
    rw [step, result, update, names']
    simp [decided']
  · rw [favourable] at unfavourable
    cases unfavourable

/-- Proposing adds a block to the chain of unvoted blocks. -/
theorem Uncertified.doEmptyPropose {core : HotstuffCore}
    (uncertified : core.Uncertified) (valid : core.Valid collisionFree)
    (running : core.failed = none) :
    (core.step (.doEmptyPropose [])).Uncertified ∧
      (core.step (.doEmptyPropose [])).store.height
          (core.step (.doEmptyPropose [])).bLeaf =
        core.store.height core.bLeaf + 1 := by
  have enabled : core.Enabled (.doEmptyPropose []) := ⟨running, trivial⟩
  have gains := valid.anchored.gains_step enabled
  have result : core.step (.doEmptyPropose []) = _ :=
    valid.anchored.proposeBody_eq false []
  have qcHash : core.hqc.2.justify = zeroHash := by
    rw [valid.hqcHash, uncertified.hqcGenesis, valid.tree.genesis_hash]
  refine ⟨⟨?_, ?_, ?_⟩, ?_⟩
  · rw [result]
    exact uncertified.hqcGenesis
  · rw [result]
    exact uncertified.unlocked
  · intro p bound
    by_cases old : p < core.store.heap.length
    · have same := (gains.longer.identity p old).2.1
      rw [block, same]
      exact uncertified.justifies p old
    · obtain ⟨wireBlock, member, header⟩ :=
        gains.new p bound (Nat.le_of_not_lt old)
      rw [header, List.mem_singleton.mp member]
      exact qcHash
  · rw [result]
    exact valid.height_minted []

end HotstuffCore

/-! ### Runs -/

variable {selfId : ReplicaID} {config : ReplicaConfig} {secretKey : SecretKey}

theorem votesIncrease_of_reachable {core : HotstuffCore}
    (reachable : ((replicaSystem selfId config secretKey).restrict
      HotstuffCore.ProposalFits).Reachable core) : core.VotesIncrease := by
  refine reachable.invariant HotstuffCore.VotesIncrease ?_ ?_
  · rintro start rfl
    have climbing := BlockStore.climbing_nil BlockStore.init 0
    exact ⟨BlockStore.wellFormed_init, climbing.placed, climbing.bounded,
      climbing.increasing⟩
  · intro core event _ votes allowed
    exact votes.step allowed.1 allowed.2

/-- As long as the proposed blocks have heights below `2 ^ 32`, the heights of
the blocks that a replica votes for are strictly increasing, and two votes at
one height are for one block. -/
theorem votes_never_repeat_height {core : HotstuffCore}
    (reachable : ((replicaSystem selfId config secretKey).restrict
      HotstuffCore.ProposalFits).Reachable core) :
    (core.votedBlocks.Pairwise fun newer older =>
      core.store.height older < core.store.height newer) ∧
    ∀ p ∈ core.votedBlocks, ∀ q ∈ core.votedBlocks,
      core.store.height p = core.store.height q → p = q := by
  have votes := votesIncrease_of_reachable reachable
  refine ⟨votes.increasing, ?_⟩
  intro p pMem q qMem same
  exact votes.climbing.eq_of_height pMem qMem same

/-- A replica that nobody votes for can propose a chain of any length. -/
theorem exists_uncertified_chain (collisionFree : CollisionFree)
    (configured : (HotstuffCore.init selfId config secretKey).Configured)
    (length : Nat) :
    ∃ core, (replicaSystem selfId config secretKey).Reachable core ∧
      core.failed = none ∧ core.Uncertified ∧ core.vheight = 0 ∧
      core.votedBlocks = [] ∧ core.store.height core.bLeaf = length := by
  induction length with
  | zero =>
      refine ⟨_, .initial rfl, rfl, ⟨rfl, rfl, ?_⟩, rfl, rfl, rfl⟩
      intro p bound
      obtain rfl : p = 0 := Nat.lt_one_iff.mp bound
      rfl
  | succ length ih =>
      obtain ⟨core, reachable, running, uncertified, vheight, noVotes, leaf⟩ :=
        ih
      have valid :=
        (replicaReached_of_reachable collisionFree configured reachable).valid
      have enabled : (replicaSystem selfId config secretKey).enabled core
          (.doEmptyPropose []) := ⟨running, trivial⟩
      obtain ⟨still, leaf'⟩ := uncertified.doEmptyPropose valid running
      have kept := core.keepsVotes_proposeBody false []
      refine ⟨_, reachable.step enabled, ?_, still, ?_, ?_, ?_⟩
      · exact (valid.anchored.proposeBody false []).2.trans running
      · exact kept.vheight.trans vheight
      · exact kept.votedBlocks.trans noVotes
      · exact leaf'.trans (congrArg (· + 1) leaf)

end Votes

open scoped Symbolic

/-- Replica `0` proposes twice and votes for both blocks. -/
def Symbolic.voteTwice : List HotstuffCore.Event :=
  [.doPropose [7], .proposal 1 0, .doPropose [8], .proposal 2 0]

theorem votes_increase_voteTwice :
    ∃ core, ((replicaSystem 0 Symbolic.fourReplicas (0 : Nat)).restrict
        HotstuffCore.ProposalFits).Reachable core ∧
      core.votedBlocks = [2, 1] ∧
      core.votedBlocks.Pairwise fun newer older =>
        core.store.height older < core.store.height newer := by
  let system := (replicaSystem 0 Symbolic.fourReplicas (0 : Nat)).restrict
    HotstuffCore.ProposalFits
  have reachable : system.Reachable (system.run
      (.init 0 Symbolic.fourReplicas (0 : Nat)) Symbolic.voteTwice) := by
    refine .run (.initial rfl) ?_
    decide +kernel
  refine ⟨_, reachable, ?_, (votes_never_repeat_height reachable).1⟩
  decide +kernel

/-- After a vote at height `2 ^ 32` comes a vote at height one. -/
theorem votes_fall_after_overflow :
    ∃ core, (replicaSystem 0 Symbolic.fourReplicas (0 : Nat)).Reachable core ∧
      ∃ low high, core.votedBlocks = [low, high] ∧
        core.store.height low = 1 ∧ core.store.height high = 2 ^ 32 := by
  have configured := Symbolic.init_configured 0 (by decide)
  obtain ⟨core, reachable, running, uncertified, vheight, noVotes, leaf⟩ :=
    exists_uncertified_chain Symbolic.collisionFree configured (2 ^ 32)
  have reached :=
    replicaReached_of_reachable Symbolic.collisionFree configured reachable
  have valid := reached.valid
  have known : core.config.isValidReplica 0 = true := by
    rw [reached.sameConfig]
    rfl
  -- The first block of the chain below the leaf.
  obtain ⟨passed, low, -, -, lowHeight, -⟩ := valid.tree.walk_spec
    (show 1 ≤ core.store.height core.bLeaf by omega)
  have highest : core.step (.proposal core.bLeaf 0) =
      core.castVote core.bLeaf 0 :=
    uncertified.step_proposal valid (by omega) 0
  have voted : (replicaSystem 0 Symbolic.fourReplicas (0 : Nat)).Reachable
      (core.castVote core.bLeaf 0) := by
    have enabled : (replicaSystem 0 Symbolic.fourReplicas (0 : Nat)).enabled
        core (.proposal core.bLeaf 0) := ⟨running, by omega, known⟩
    have next := reachable.step enabled
    change (replicaSystem 0 Symbolic.fourReplicas (0 : Nat)).Reachable
      (core.step (.proposal core.bLeaf 0)) at next
    rwa [highest] at next
  have forgotten : (core.castVote core.bLeaf 0).vheight = 0 := by
    change core.store.height core.bLeaf % 2 ^ 32 = 0
    rw [leaf, Nat.mod_self]
  have still : (core.castVote core.bLeaf 0).Uncertified :=
    ⟨uncertified.hqcGenesis, uncertified.unlocked, uncertified.justifies⟩
  have lowest : (core.castVote core.bLeaf 0).step (.proposal low 0) =
      (core.castVote core.bLeaf 0).castVote low 0 := by
    refine still.step_proposal (valid.castVote valid.leafPlaced 0) ?_ 0
    rw [forgotten]
    exact Nat.lt_of_lt_of_eq Nat.zero_lt_one lowHeight.symm
  have enabled : (replicaSystem 0 Symbolic.fourReplicas (0 : Nat)).enabled
      (core.castVote core.bLeaf 0) (.proposal low 0) :=
    ⟨running, fun zero => Nat.one_ne_zero (lowHeight.symm.trans zero), known⟩
  have next := voted.step enabled
  change (replicaSystem 0 Symbolic.fourReplicas (0 : Nat)).Reachable
    ((core.castVote core.bLeaf 0).step (.proposal low 0)) at next
  rw [lowest] at next
  refine ⟨_, next, low, core.bLeaf, ?_, lowHeight, leaf⟩
  exact congrArg (fun blocks => low :: core.bLeaf :: blocks) noVotes

end Hotstuff
