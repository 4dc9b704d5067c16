import Hotstuff.VoteHeights

/-!
# The leaf that a proposer builds on

`b_leaf` is the block on which the next proposal is minted.  It moves in two
ways: a certificate for a block above the highest certified one makes that block
the leaf, and a proposal makes the minted block the leaf.

A proposer that waits for the certificate on its last block before it proposes
again never loses height.  Without waiting, a certificate for an older block of
the pipeline takes the leaf back to it, and the next proposal repeats a height.
-/

namespace Hotstuff

section Leaf

variable [WireTypes] [Externals]

/-- The block object that is broadcast. -/
def Effect.mintedBlock : Effect → Option BlockPtr
  | .broadcastProposal block _ => some block
  | _ => none

namespace HotstuffCore

/-- The blocks minted so far, newest first. -/
def mintedBlocks (core : HotstuffCore) : List BlockPtr :=
  core.trace.filterMap Effect.mintedBlock

/-! ### How the leaf moves -/

structure MintsNothing (core after : HotstuffCore) : Prop where
  mintedBlocks : after.mintedBlocks = core.mintedBlocks
  proposedWires : after.proposedWires = core.proposedWires

/-- What an event does to the leaf, the highest certificate and the minted
blocks. -/
inductive LeafMoves (core : HotstuffCore) (event : Event)
    (after : HotstuffCore) : Prop
  | stays (leaf : after.bLeaf = core.bLeaf) (hqc : after.hqc = core.hqc)
      (idle : MintsNothing core after)
  | certified {q : BlockPtr} (placed : core.store.Placed q)
      (higher : core.store.height core.hqc.1 < core.store.height q)
      (leaf : after.bLeaf = q) (hqc : after.hqc.1 = q)
      (idle : MintsNothing core after)
  | mints (nonemptyProposal : Bool) (body : Body)
      (proposes : event = .doPropose body ∨ event = .doEmptyPropose body)
      (result : after = core.proposeBody nonemptyProposal body)

omit [Externals] in
theorem Internal.mintsNothing {core after : HotstuffCore}
    (internal : Internal core after) : MintsNothing core after := by
  refine ⟨?_, internal.proposedWires⟩
  apply internal.filterMap_trace
  intro effect notSent
  cases effect <;> simp_all [Effect.isSent, Effect.mintedBlock]

/-- The leaf and the highest certificate. -/
def proposing (core : HotstuffCore) :
    BlockPtr × BlockPtr × QuorumCertificateWire :=
  (core.bLeaf, core.hqc)

theorem proposing_updateHqc (core : HotstuffCore) (q : BlockPtr)
    (qc : QuorumCertificate) :
    (core.updateHqc q qc).proposing = core.proposing ∨
      core.store.height core.hqc.1 < core.store.height q ∧
        (core.updateHqc q qc).proposing = (q, q, qc.serialize) := by
  rcases updateHqc_cases core q qc with
    ⟨higher, effects, -, result⟩ | ⟨-, result⟩ <;> rw [result]
  · exact .inr ⟨higher, rfl⟩
  · exact .inl rfl

theorem proposing_commit (core : HotstuffCore) (commitQueue : List BlockPtr)
    (blk : BlockPtr) (qc : QuorumCertificate) :
    (core.commit commitQueue blk qc).proposing = core.proposing :=
  property_foldl_commitBlock proposing (fun _ _ => rfl) core
    commitQueue.reverse

/-- After the certificate step, `update` leaves the leaf alone. -/
theorem proposing_update (core : HotstuffCore) (nblk : BlockPtr) :
    (core.update nblk).proposing = core.proposing ∨
      ∃ blk2, (core.block nblk).justifyBlockPtr = some blk2 ∧
        (core.update nblk).proposing =
          (core.updateHqc blk2 (core.block nblk).getJustifyQc).proposing := by
  have outcome := update_result core nblk
  generalize core.update nblk = after at outcome ⊢
  cases outcome with
  | skip => exact .inl rfl
  | certificate names2 => exact .inr ⟨_, names2, rfl⟩
  | lock names2 => exact .inr ⟨_, names2, rfl⟩
  | fail names2 => exact .inr ⟨_, names2, rfl⟩
  | commit names2 => exact .inr ⟨_, names2, proposing_commit _ _ _ _⟩

theorem LeafMoves.of_proposing {core after : HotstuffCore} {event : Event}
    (same : after.proposing = core.proposing)
    (idle : MintsNothing core after) :
    LeafMoves core event after :=
  .stays (congrArg Prod.fst same) (congrArg Prod.snd same) idle

/-- A single certificate step moves the leaf at most to the certified block. -/
theorem LeafMoves.of_updateHqc {core after : HotstuffCore} {event : Event}
    {q : BlockPtr} {qc : QuorumCertificate} (tree : core.store.WellFormed)
    (same : after.proposing = (core.updateHqc q qc).proposing)
    (idle : MintsNothing core after) :
    LeafMoves core event after := by
  rcases core.proposing_updateHqc q qc with kept | ⟨higher, raised⟩
  · exact .of_proposing (same.trans kept) idle
  · have moved := same.trans raised
    -- a block outside the tree has height zero and certifies nothing
    have linked := tree.linked_of_height_pos (Nat.zero_lt_of_lt higher)
    exact .certified (.inr linked) higher (congrArg (·.1) moved)
      (congrArg (·.2.1) moved) idle

theorem leafMoves_update {core : HotstuffCore} (tree : core.store.WellFormed)
    (event : Event) (nblk : BlockPtr) :
    LeafMoves core event (core.update nblk) := by
  have idle := (internal_update core nblk).mintsNothing
  rcases core.proposing_update nblk with same | ⟨blk2, names2, same⟩
  · exact .of_proposing same idle
  · exact .of_updateHqc tree same idle

theorem LeafMoves.of_castVote {core after : HotstuffCore} {p : BlockPtr}
    {proposer : ReplicaID}
    (moves : LeafMoves (core.castVote p proposer) (.proposal p proposer)
      after) : LeafMoves core (.proposal p proposer) after := by
  cases moves with
  | stays leaf hqc idle =>
      exact .stays leaf hqc ⟨idle.mintedBlocks, idle.proposedWires⟩
  | certified placed higher leaf hqc idle =>
      exact .certified placed higher leaf hqc
        ⟨idle.mintedBlocks, idle.proposedWires⟩
  | mints _ _ proposes => rcases proposes with other | other <;> cases other

theorem leafMoves_onReceiveVote {core : HotstuffCore}
    (tree : core.store.WellFormed) (event : Event) (cert : PartialCertificate)
    (p : BlockPtr) (voter : ReplicaID) :
    LeafMoves core event (core.onReceiveVote cert p voter) := by
  have idle := (internal_onReceiveVote core cert p voter).mintsNothing
  rcases core.onReceiveVote_cases cert p voter with
    ⟨message, -, result⟩ | ⟨extended, added, ⟨-, -, result⟩ | result⟩ <;>
    rw [result] at idle ⊢
  · exact .of_proposing rfl idle
  · -- The vote does not change heights, so `update_hqc` decides as before.
    have heights := (sameTree_withVote added).height
    have certificate : ((core.withVote p extended).updateHqc p
        extended).proposing = (core.updateHqc p extended).proposing := by
      unfold updateHqc
      rw [show (core.withVote p extended).hqc = core.hqc from rfl, heights,
        heights]
      split
      · dsimp only
        split <;> split <;> rfl
      · rfl
    exact .of_updateHqc tree certificate idle
  · exact .of_proposing rfl idle

theorem leafMoves_step {core : HotstuffCore} (tree : core.store.WellFormed)
    (event : Event) : LeafMoves core event (core.step event) := by
  cases event with
  | receiveBlock wireBlock source => exact .stays rfl rfl ⟨rfl, rfl⟩
  | insertBlock p => exact .stays rfl rfl ⟨rfl, rfl⟩
  | vote cert p voter => exact leafMoves_onReceiveVote tree _ cert p voter
  | selfVote p => exact leafMoves_onReceiveVote tree _ _ p core.selfId
  | proposal p proposer =>
      rcases onReceiveProposal_cases tree p proposer with
        ⟨-, result⟩ | ⟨-, result⟩ <;> rw [HotstuffCore.step, result]
      · have voted : (core.castVote p proposer).store.WellFormed := tree
        exact (leafMoves_update voted (.proposal p proposer) p).of_castVote
      · exact leafMoves_update tree _ p
  | doPropose body => exact .mints _ body (.inl rfl) rfl
  | doEmptyPropose body => exact .mints _ body (.inr rfl) rfl
  | garbageCollect => exact .stays rfl rfl ⟨rfl, rfl⟩

/-- The highest certificate does not lose height. -/
structure HqcRises (core after : HotstuffCore) : Prop where
  placed : core.store.Placed after.hqc.1
  higher : core.store.height core.hqc.1 ≤ core.store.height after.hqc.1

theorem LeafMoves.hqcRises {core after : HotstuffCore} {event : Event}
    (moves : LeafMoves core event after) (anchored : core.Anchored) :
    HqcRises core after := by
  cases moves with
  | stays _ hqc _ => exact ⟨hqc ▸ anchored.hqcPlaced, hqc ▸ Nat.le_refl _⟩
  | certified placed higher _ hqc _ =>
      exact ⟨hqc ▸ placed, hqc ▸ higher.le⟩
  | mints nonemptyProposal body _ result =>
      rw [result, anchored.proposeBody_eq]
      exact ⟨anchored.hqcPlaced, Nat.le_refl _⟩

/-! ### Waiting for certificates -/

/-- A proposal is only made while the leaf is the highest certified block. -/
def WaitsForQc (core : HotstuffCore) : Event → Prop
  | .doPropose _ => core.bLeaf = core.hqc.1
  | .doEmptyPropose _ => core.bLeaf = core.hqc.1
  | _ => True

instance decidableWaitsForQc (core : HotstuffCore) :
    (event : Event) → Decidable (core.WaitsForQc event)
  | .receiveBlock _ _ => inferInstanceAs (Decidable True)
  | .insertBlock _ => inferInstanceAs (Decidable True)
  | .vote _ _ _ => inferInstanceAs (Decidable True)
  | .selfVote _ => inferInstanceAs (Decidable True)
  | .proposal _ _ => inferInstanceAs (Decidable True)
  | .doPropose _ => inferInstanceAs (Decidable (_ = _))
  | .doEmptyPropose _ => inferInstanceAs (Decidable (_ = _))
  | .garbageCollect => inferInstanceAs (Decidable True)

/-- The leaf is at most one above the highest certified block, and the minted
blocks are at increasing heights up to the leaf. -/
structure LeafSteady (core : HotstuffCore) : Prop where
  near : core.store.height core.bLeaf ≤ core.store.height core.hqc.1 + 1
  climbing : core.store.Climbing core.mintedBlocks
    (core.store.height core.bLeaf)

variable {collisionFree : CollisionFree}

/-- Under a waiting proposer the leaf does not lose height. -/
theorem LeafSteady.step {core : HotstuffCore} (steady : core.LeafSteady)
    (valid : core.Valid collisionFree) {event : Event}
    (enabled : core.Enabled event) (waits : core.WaitsForQc event) :
    (core.step event).LeafSteady ∧
      core.store.height core.bLeaf ≤
        (core.step event).store.height (core.step event).bLeaf := by
  have longer := (grows_step valid.tree enabled).2
  have moves := leafMoves_step valid.tree event
  generalize core.step event = after at longer moves ⊢
  have near := steady.near
  cases moves with
  | stays leaf hqc idle =>
      have leafHeight : after.store.height after.bLeaf =
          core.store.height core.bLeaf := by
        rw [leaf, longer.height valid.leafPlaced]
      have hqcHeight : after.store.height after.hqc.1 =
          core.store.height core.hqc.1 := by
        rw [hqc, longer.height valid.hqcPlaced]
      have below := Nat.le_of_eq leafHeight.symm
      refine ⟨⟨by omega, ?_⟩, below⟩
      rw [idle.mintedBlocks]
      exact steady.climbing.extend longer below
  | @certified q placed higher leaf hqc idle =>
      have qHeight := longer.height placed
      rw [← hqc] at qHeight
      have sameBlock : after.bLeaf = after.hqc.1 := leaf.trans hqc.symm
      have below : core.store.height core.bLeaf ≤
          after.store.height after.bLeaf := by
        rw [sameBlock, qHeight, hqc]
        omega
      refine ⟨⟨by rw [sameBlock]; exact Nat.le_succ _, ?_⟩, below⟩
      rw [idle.mintedBlocks]
      exact steady.climbing.extend longer below
  | mints nonemptyProposal body proposes result =>
      have certifiedLeaf : core.bLeaf = core.hqc.1 := by
        rcases proposes with rfl | rfl <;> exact waits
      rw [valid.anchored.proposeBody_eq] at result
      subst result
      have hqcHeight := longer.height valid.hqcPlaced
      have newHeight := valid.height_minted body
      have newPlaced : (core.mintedStore body).1.Placed
          core.store.heap.length := by
        right
        obtain ⟨-, -, -, parent, edge, -⟩ := valid.anchored.mintedStore body
        rw [HotstuffBlock.Linked, edge]
        rfl
      dsimp only at longer hqcHeight ⊢
      refine ⟨⟨?_, ?_⟩, by omega⟩
      · rw [newHeight, hqcHeight, certifiedLeaf]
      · have old := steady.climbing.extend longer (Nat.le_refl _)
        exact old.cons newPlaced (by omega)

end HotstuffCore

/-! ### Runs -/

variable {selfId : ReplicaID} {config : ReplicaConfig} {secretKey : SecretKey}

theorem leafSteady_of_reachable (collisionFree : CollisionFree)
    (configured : (HotstuffCore.init selfId config secretKey).Configured)
    {core : HotstuffCore}
    (reachable : ((replicaSystem selfId config secretKey).restrict
      HotstuffCore.WaitsForQc).Reachable core) : core.LeafSteady := by
  refine reachable.invariant HotstuffCore.LeafSteady ?_ ?_
  · rintro start rfl
    exact ⟨Nat.zero_le _, BlockStore.climbing_nil _ _⟩
  · intro core event reached steady allowed
    have replica := replicaReached_of_reachable collisionFree configured
      reached.of_restrict
    exact (steady.step replica.valid allowed.1 allowed.2).1

/-- When hashes do not collide and a proposal is only made while the leaf is the
highest certified block, then no event replaces the leaf by one of its proper
ancestors, and the minted blocks are at strictly increasing heights, so that no
two of them are at the same height. -/
theorem leaf_never_falls_back (collisionFree : CollisionFree)
    (configured : (HotstuffCore.init selfId config secretKey).Configured)
    {core : HotstuffCore}
    (reachable : ((replicaSystem selfId config secretKey).restrict
      HotstuffCore.WaitsForQc).Reachable core) :
    (∀ event, core.Enabled event → core.WaitsForQc event →
      ∀ passed, (core.step event).store.Chain core.bLeaf passed
        (core.step event).bLeaf → passed = []) ∧
    (core.mintedBlocks.Pairwise fun newer older =>
      core.store.height older < core.store.height newer) ∧
    ∀ p ∈ core.mintedBlocks, ∀ q ∈ core.mintedBlocks,
      core.store.height p = core.store.height q → p = q := by
  have steady := leafSteady_of_reachable collisionFree configured reachable
  have replica := replicaReached_of_reachable collisionFree configured
    reachable.of_restrict
  refine ⟨?_, steady.climbing.increasing, ?_⟩
  · intro event enabled waits passed chain
    obtain ⟨-, below⟩ := steady.step replica.valid enabled waits
    obtain ⟨tree, longer⟩ := HotstuffCore.grows_step replica.valid.tree enabled
    have fall := tree.chain_height chain
    rw [longer.height replica.valid.leafPlaced] at fall
    apply List.eq_nil_of_length_eq_zero
    omega
  · intro p pMem q qMem same
    exact steady.climbing.eq_of_height pMem qMem same

end Leaf

open scoped Symbolic

theorem leaf_rises_proposeTwice :
    ∃ core, ((replicaSystem 0 Symbolic.fourReplicas (0 : Nat)).restrict
        HotstuffCore.WaitsForQc).Reachable core ∧
      core.mintedBlocks = [2, 1] ∧
      core.mintedBlocks.Pairwise fun newer older =>
        core.store.height older < core.store.height newer := by
  let system := (replicaSystem 0 Symbolic.fourReplicas (0 : Nat)).restrict
    HotstuffCore.WaitsForQc
  have reachable : system.Reachable (system.run
      (.init 0 Symbolic.fourReplicas (0 : Nat)) Symbolic.proposeTwice) := by
    refine .run (.initial rfl) ?_
    decide +kernel
  refine ⟨_, reachable, ?_, (leaf_never_falls_back Symbolic.collisionFree
    (Symbolic.init_configured 0 (by decide)) reachable).2.1⟩
  decide +kernel

/-- Replica `0` proposes twice without waiting, then collects a quorum for the
first block and proposes again. -/
def Symbolic.pipelined : List HotstuffCore.Event :=
  let first : Hash := hashHeader
    (HotstuffBlock.mintBlock [7] HotstuffBlock.genesisBlock.selfQc.serialize
      zeroHash 0).wireBlock.header
  [.doPropose [7], .doPropose [8], .proposal 1 0, .selfVote 1,
    .vote (voteOf 1 first) 1 1, .vote (voteOf 2 first) 1 2, .doPropose [9]]

/-- The second block is at height two; the certificate for its parent takes the
leaf back to the parent, and the third block is at height two again. -/
theorem leaf_falls_back_pipelined :
    let system := replicaSystem 0 Symbolic.fourReplicas (0 : Nat)
    let start := HotstuffCore.init 0 Symbolic.fourReplicas (0 : Nat)
    let before := system.run start (Symbolic.pipelined.take 5)
    let certified := system.run start (Symbolic.pipelined.take 6)
    let last := system.run start Symbolic.pipelined
    system.EnabledAlong start Symbolic.pipelined ∧
      before.bLeaf = 2 ∧ certified.bLeaf = 1 ∧
      (certified.block 2).parentBlockPtr = some 1 ∧
      last.mintedBlocks = [3, 2, 1] ∧
      last.store.height 2 = 2 ∧ last.store.height 3 = 2 ∧
      last.store.hash 2 ≠ last.store.hash 3 := by
  decide +kernel

end Hotstuff
