import Hotstuff.ReplicaInvariant
import Hotstuff.TransitionSystem
import Mathlib.Tactic.IntervalCases

/-!
# Runs of one replica

A replica that was started with `init_clean` processes events in any order.  In
every state it reaches, its highest certificate and its leaf are fit for
proposing: minting never fails, and every replica with the same configuration
accepts the minted block.
-/

namespace Hotstuff

section Runs

variable [WireTypes] [Externals]

namespace HotstuffCore

omit [Externals] in
/-- What is sent is the same after an internal step. -/
theorem Internal.filterMap_trace {core after : HotstuffCore} {Sent : Type*}
    (internal : Internal core after) (select : Effect → Option Sent)
    (sent : ∀ effect : Effect, effect.isSent = false → select effect = none) :
    after.trace.filterMap select = core.trace.filterMap select := by
  obtain ⟨effects, traceEq, silent⟩ := internal.trace
  have noneSent : effects.filterMap select = [] := by
    apply List.filterMap_eq_nil_iff.mpr
    intro effect member
    exact sent effect (silent effect member)
  rw [traceEq, List.filterMap_append, noneSent]
  rfl

omit [Externals] in
theorem Internal.votedHashes {core after : HotstuffCore}
    (internal : Internal core after) :
    after.votedHashes = core.votedHashes := by
  apply internal.filterMap_trace
  intro effect notSent
  cases effect <;> simp_all [Effect.isSent, Effect.votedHash]

omit [Externals] in
theorem Internal.proposedWires {core after : HotstuffCore}
    (internal : Internal core after) :
    after.proposedWires = core.proposedWires := by
  apply internal.filterMap_trace
  intro effect notSent
  cases effect <;> simp_all [Effect.isSent, Effect.proposedWire]

/-- The votes that an event triggers. -/
def newVotes (core : HotstuffCore) : Event → List Hash
  | .proposal p _ =>
      if core.opinion p = some true then [core.store.hash p] else []
  | _ => []

/-- The blocks that an event mints. -/
def newProposals (core : HotstuffCore) : Event → List HotstuffBlockWire
  | .doPropose body => [(core.minted body).wireBlock]
  | .doEmptyPropose body => [(core.minted body).wireBlock]
  | _ => []

/-- What a step may do to the identity of the replica and to what it has
sent. -/
structure Sends (core after : HotstuffCore) (votes : List Hash)
    (proposals : List HotstuffBlockWire) : Prop where
  selfId : after.selfId = core.selfId
  config : after.config = core.config
  secretKey : after.secretKey = core.secretKey
  votedHashes : after.votedHashes = votes ++ core.votedHashes
  proposedWires : after.proposedWires = proposals ++ core.proposedWires

omit [Externals] in
theorem Internal.sends {core after : HotstuffCore}
    (internal : Internal core after) : Sends core after [] [] :=
  ⟨internal.selfId, internal.config, internal.secretKey,
    internal.votedHashes, internal.proposedWires⟩

theorem Anchored.sends_proposeBody {core : HotstuffCore}
    (anchored : core.Anchored) (nonemptyProposal : Bool)
    (body : Body) :
    Sends core (core.proposeBody nonemptyProposal body) []
      [(core.minted body).wireBlock] := by
  rw [anchored.proposeBody_eq]
  exact ⟨rfl, rfl, rfl, rfl, rfl⟩

theorem Anchored.sends_step {core : HotstuffCore}
    (anchored : core.Anchored) (event : Event) :
    Sends core (core.step event) (core.newVotes event)
      (core.newProposals event) := by
  cases event with
  | receiveBlock wireBlock source => exact ⟨rfl, rfl, rfl, rfl, rfl⟩
  | insertBlock p => exact ⟨rfl, rfl, rfl, rfl, rfl⟩
  | vote cert p voter => exact (internal_onReceiveVote core cert p voter).sends
  | selfVote p => exact (internal_onReceiveVote core _ p core.selfId).sends
  | proposal p proposer =>
      rcases onReceiveProposal_cases anchored.tree p proposer with
        ⟨favourable, result⟩ | ⟨unfavourable, result⟩
      · have updated :=
          (internal_update (core.castVote p proposer) p).sends
        rw [HotstuffCore.step, result, newVotes, if_pos favourable]
        exact ⟨updated.selfId, updated.config, updated.secretKey,
          updated.votedHashes, updated.proposedWires⟩
      · rw [HotstuffCore.step, result, newVotes, if_neg (by simp [unfavourable])]
        exact (internal_update core p).sends
  | doPropose body => exact anchored.sends_proposeBody _ body
  | doEmptyPropose body => exact anchored.sends_proposeBody _ body
  | garbageCollect => exact ⟨rfl, rfl, rfl, rfl, rfl⟩

theorem Configured.step {core : HotstuffCore} (configured : core.Configured)
    (anchored : core.Anchored) (event : Event) :
    (core.step event).Configured := by
  have sends := anchored.sends_step event
  refine ⟨?_, ?_⟩
  · rw [sends.config]
    exact configured.idsSmall
  · rw [sends.config, sends.selfId, sends.secretKey]
    exact configured.selfSigns

/-- Of all failures only the assertion in `update` can be reached. -/
theorem Anchored.failed_update {core : HotstuffCore}
    (anchored : core.Anchored) (nblk : BlockPtr) :
    (core.update nblk).failed = core.failed ∨
      (core.update nblk).failed = some .safetyBreached := by
  have outcome := update_result core nblk
  generalize core.update nblk = after at outcome ⊢
  cases outcome with
  | skip => exact .inl rfl
  | certificate => exact .inl (failed_updateHqc core _ _)
  | lock => exact .inl (failed_updateHqc core _ _)
  | @fail blk2 blk1 blk failure _ _ _ _ _ _ _ _ reason =>
      rcases reason with ⟨-, noResult⟩ | ⟨breached, -⟩
      · have total := anchored.tree.walk_isSome (core.store.height core.bExec)
          (Nat.le_refl (core.store.height blk))
        rw [noResult] at total
        cases total
      · rw [breached]
        exact .inr rfl
  | @commit blk2 blk1 blk commitQueue names2 _ names1 _ names _ _ _ walked =>
      left
      have same := (core.updateHqc blk2
        (core.block nblk).getJustifyQc).sameTree_lockAndWrite blk1
      rw [updateHqc_store] at same
      obtain ⟨chain, -, -⟩ := BlockStore.walk_cases walked
      obtain ⟨_, _, result⟩ := commit_eq
        ((core.updateHqc blk2 (core.block nblk).getJustifyQc).lockAndWrite blk1)
        commitQueue blk (core.block blk1).getJustifyQc
        (anchored.tree.chain_nodup chain)
        (fun p member => same.length ▸
          BlockStore.WellFormed.lt_of_linked (chain.linked_of_mem member))
      rw [result]
      exact failed_updateHqc core _ _

theorem Anchored.failed_step {core : HotstuffCore}
    (anchored : core.Anchored) (configured : core.Configured)
    {event : Event} (enabled : core.Enabled event) :
    (core.step event).failed = core.failed ∨
      (core.step event).failed = some .safetyBreached := by
  cases event with
  | receiveBlock wireBlock source => exact .inl rfl
  | insertBlock p => exact .inl rfl
  | vote cert p voter =>
      exact .inl (anchored.onReceiveVote (anchored.goodVote configured enabled)).2
  | selfVote p =>
      exact .inl (anchored.onReceiveVote
        (anchored.goodSelfVote configured enabled.2)).2
  | proposal p proposer =>
      have placed := anchored.placed_of_height enabled.2.1
      rcases onReceiveProposal_cases anchored.tree p proposer with
        ⟨-, result⟩ | ⟨-, result⟩
      · rw [HotstuffCore.step, result]
        exact (anchored.castVote placed proposer).failed_update p
      · rw [HotstuffCore.step, result]
        exact anchored.failed_update p
  | doPropose body => exact .inl (anchored.proposeBody _ body).2
  | doEmptyPropose body => exact .inl (anchored.proposeBody _ body).2
  | garbageCollect => exact .inl rfl

/-! ### Blocks only arrive from outside or are minted -/

theorem sameTree_update {core : HotstuffCore} (tree : core.store.WellFormed)
    (nblk : BlockPtr) : core.store.SameTree (core.update nblk).store := by
  have locked (blk2 blk1 : BlockPtr) (qc : QuorumCertificate) :
      core.store.SameTree
        ((core.updateHqc blk2 qc).lockAndWrite blk1).store := by
    have same := (core.updateHqc blk2 qc).sameTree_lockAndWrite blk1
    rwa [updateHqc_store] at same
  have outcome := update_result core nblk
  generalize core.update nblk = after at outcome ⊢
  cases outcome with
  | skip => exact .refl core.store
  | certificate =>
      rw [updateHqc_store]
      exact .refl core.store
  | lock => exact locked _ _ _
  | fail => exact locked _ _ _
  | @commit blk2 blk1 blk commitQueue _ _ _ _ _ _ _ _ walked =>
      have same := locked blk2 blk1 (core.block nblk).getJustifyQc
      obtain ⟨chain, -, -⟩ := BlockStore.walk_cases walked
      exact same.trans (sameTree_commit _ commitQueue blk _
        (tree.chain_nodup chain) fun p member => same.length ▸
          BlockStore.WellFormed.lt_of_linked (chain.linked_of_mem member))

theorem sameTree_onReceiveProposal {core : HotstuffCore}
    (tree : core.store.WellFormed) (p : BlockPtr) (proposer : ReplicaID) :
    core.store.SameTree (core.onReceiveProposal p proposer).store := by
  rcases onReceiveProposal_cases tree p proposer with
    ⟨-, result⟩ | ⟨-, result⟩ <;> rw [result]
  · have voted : (core.castVote p proposer).store.WellFormed := tree
    exact sameTree_update voted p
  · exact sameTree_update tree p

theorem sameTree_onReceiveVote (core : HotstuffCore)
    (cert : PartialCertificate) (p : BlockPtr) (voter : ReplicaID) :
    core.store.SameTree (core.onReceiveVote cert p voter).store := by
  rcases core.onReceiveVote_cases cert p voter with
    ⟨message, -, result⟩ | ⟨extended, added, ⟨-, -, result⟩ | result⟩
  · rw [result]
    exact .refl core.store
  · rw [result]
    change core.store.SameTree
      ((core.withVote p extended).updateHqc p extended).store
    rw [updateHqc_store]
    exact sameTree_withVote added
  · rw [result]
    exact sameTree_withVote added

/-! ### The tree only grows -/

theorem grows_mintedStore {core : HotstuffCore}
    (tree : core.store.WellFormed) (body : Body) :
    (core.mintedStore body).1.WellFormed ∧
      core.store.Extends (core.mintedStore body).1 := by
  have fresh : (core.minted body).links =
      (HotstuffBlock.new (core.minted body).wireBlock core.selfId).links := rfl
  have allocated := tree.alloc fresh
  have bound : core.store.heap.length <
      (core.store.alloc (core.minted body)).1.heap.length := by
    simp [BlockStore.alloc]
  obtain ⟨inserted, longer⟩ := allocated.insertBlock tree.nonempty.ne' bound
  exact ⟨inserted, (tree.extends_alloc _).trans longer⟩

theorem store_proposeBody (core : HotstuffCore) (nonemptyProposal : Bool)
    (body : Body) :
    (core.proposeBody nonemptyProposal body).store =
      (core.mintedStore body).1 := by
  rcases core.proposeBody_cases nonemptyProposal body with
    ⟨-, result⟩ | ⟨-, result⟩ <;> rw [result]

/-- Every event keeps the blocks that are in the tree. -/
theorem grows_step {core : HotstuffCore} (tree : core.store.WellFormed)
    {event : Event} (enabled : core.Enabled event) :
    (core.step event).store.WellFormed ∧
      core.store.Extends (core.step event).store := by
  have unchanged {after : BlockStore} (same : core.store.SameTree after) :
      after.WellFormed ∧ core.store.Extends after :=
    ⟨same.wellFormed tree, same.extends⟩
  cases event with
  | receiveBlock wireBlock source =>
      have fresh := HotstuffBlock.property_validateHotstuff
        HotstuffBlock.links (fun _ _ => rfl)
        (HotstuffBlock.new wireBlock source) core.config
      exact ⟨tree.alloc fresh, tree.extends_alloc _⟩
  | insertBlock p => exact tree.insertBlock enabled.2.1 enabled.2.2
  | vote cert p voter => exact unchanged (sameTree_onReceiveVote _ _ _ _)
  | selfVote p => exact unchanged (sameTree_onReceiveVote _ _ _ _)
  | proposal p proposer =>
      exact unchanged (sameTree_onReceiveProposal tree p proposer)
  | doPropose body =>
      rw [step, doPropose, store_proposeBody]
      exact grows_mintedStore tree body
  | doEmptyPropose body =>
      rw [step, doEmptyPropose, store_proposeBody]
      exact grows_mintedStore tree body
  | garbageCollect => exact unchanged (BlockStore.sameTree_runGc _)

/-- The blocks that an event brings to the replica. -/
def newBlocks (core : HotstuffCore) : Event → List HotstuffBlockWire
  | .receiveBlock wireBlock _ => [wireBlock]
  | event => core.newProposals event

/-- The store keeps its blocks, and every other block was brought by the
event. -/
structure Gains (core after : HotstuffCore)
    (wireBlocks : List HotstuffBlockWire) : Prop where
  longer : core.store.Extends after.store
  new : ∀ p < after.store.heap.length, core.store.heap.length ≤ p →
    ∃ wireBlock ∈ wireBlocks,
      (after.block p).wireBlock.header = wireBlock.header

omit [Externals] in
theorem Gains.of_sameTree {core after : HotstuffCore}
    (same : core.store.SameTree after.store)
    (wireBlocks : List HotstuffBlockWire) : Gains core after wireBlocks :=
  ⟨same.extends, fun _ bound outside =>
    (Nat.not_lt.mpr outside (same.length ▸ bound)).elim⟩

theorem Anchored.gains_proposeBody {core : HotstuffCore}
    (anchored : core.Anchored) (nonemptyProposal : Bool)
    (body : Body) :
    Gains core (core.proposeBody nonemptyProposal body)
      [(core.minted body).wireBlock] := by
  obtain ⟨-, longer, -⟩ := anchored.mintedStore body
  rw [anchored.proposeBody_eq]
  refine ⟨longer, fun p bound outside => ⟨_, List.mem_singleton_self _, ?_⟩⟩
  change p < (core.mintedStore body).1.heap.length at bound
  rw [HotstuffCore.mintedStore, BlockStore.length_insertBlock] at bound
  obtain rfl : p = core.store.heap.length :=
    (BlockStore.lt_or_eq_of_alloc bound).resolve_left (Nat.not_lt.mpr outside)
  change ((core.mintedStore body).1.block _).wireBlock.header = _
  rw [HotstuffCore.mintedStore, BlockStore.property_insertBlock
      (fun block => block.wireBlock.header) (fun _ _ _ _ => rfl),
    BlockStore.block_alloc, if_pos rfl]

theorem Anchored.gains_step {core : HotstuffCore}
    (anchored : core.Anchored) {event : Event}
    (enabled : core.Enabled event) :
    Gains core (core.step event) (core.newBlocks event) := by
  cases event with
  | receiveBlock wireBlock source =>
      refine ⟨anchored.tree.extends_alloc _, fun p bound outside =>
        ⟨wireBlock, List.mem_singleton_self _, ?_⟩⟩
      obtain rfl : p = core.store.heap.length :=
        (BlockStore.lt_or_eq_of_alloc bound).resolve_left
          (Nat.not_lt.mpr outside)
      change ((core.store.alloc _).1.block _).wireBlock.header = _
      rw [BlockStore.block_alloc, if_pos rfl]
      exact HotstuffBlock.property_validateHotstuff
        (fun block => block.wireBlock.header) (fun _ _ => rfl) _ _
  | insertBlock p =>
      obtain ⟨-, notGenesis, bound⟩ := enabled
      refine ⟨(anchored.tree.insertBlock notGenesis bound).2,
        fun q inside outside => ?_⟩
      change q < (core.store.insertBlock p).1.heap.length at inside
      rw [BlockStore.length_insertBlock] at inside
      exact (Nat.not_lt.mpr outside inside).elim
  | vote cert p voter => exact .of_sameTree (sameTree_onReceiveVote _ _ _ _) _
  | selfVote p => exact .of_sameTree (sameTree_onReceiveVote _ _ _ _) _
  | proposal p proposer =>
      exact .of_sameTree (sameTree_onReceiveProposal anchored.tree p proposer) _
  | doPropose body => exact anchored.gains_proposeBody _ body
  | doEmptyPropose body => exact anchored.gains_proposeBody _ body
  | garbageCollect => exact .of_sameTree (BlockStore.sameTree_runGc _) _

end HotstuffCore

/-- The runs of one replica from a clean start. -/
def replicaSystem (selfId : ReplicaID) (config : ReplicaConfig)
    (secretKey : SecretKey) :
    TransitionSystem HotstuffCore HotstuffCore.Event where
  initial := fun core => core = .init selfId config secretKey
  enabled := HotstuffCore.Enabled
  next := HotstuffCore.step

instance decidableReplicaEnabled (selfId : ReplicaID)
    (config : ReplicaConfig) (secretKey : SecretKey) (core : HotstuffCore)
    (event : HotstuffCore.Event) :
    Decidable ((replicaSystem selfId config secretKey).enabled core event) :=
  HotstuffCore.decidableEnabled core event

variable {collisionFree : CollisionFree} {selfId : ReplicaID}
  {config : ReplicaConfig} {secretKey : SecretKey}

/-- What holds in every state of a correctly configured replica, for any hash
function. -/
structure Operating (selfId : ReplicaID) (config : ReplicaConfig)
    (secretKey : SecretKey) (core : HotstuffCore) : Prop where
  anchored : core.Anchored
  configured : core.Configured
  sameId : core.selfId = selfId
  sameConfig : core.config = config
  sameKey : core.secretKey = secretKey
  failed : core.failed = none ∨ core.failed = some .safetyBreached

theorem Operating.init
    (configured : (HotstuffCore.init selfId config secretKey).Configured) :
    Operating selfId config secretKey (.init selfId config secretKey) :=
  ⟨.init selfId config secretKey, configured, rfl, rfl, rfl, .inl rfl⟩

theorem Operating.step {core : HotstuffCore}
    (operating : Operating selfId config secretKey core)
    {event : HotstuffCore.Event} (enabled : core.Enabled event) :
    Operating selfId config secretKey (core.step event) := by
  have sends := operating.anchored.sends_step event
  refine ⟨operating.anchored.step operating.configured enabled,
    operating.configured.step operating.anchored event,
    sends.selfId.trans operating.sameId,
    sends.config.trans operating.sameConfig,
    sends.secretKey.trans operating.sameKey, ?_⟩
  rcases operating.anchored.failed_step operating.configured enabled with
    same | breached
  · rw [same]
    exact operating.failed
  · exact .inr breached

theorem operating_of_reachable
    (configured : (HotstuffCore.init selfId config secretKey).Configured)
    {core : HotstuffCore}
    (reachable : (replicaSystem selfId config secretKey).Reachable core) :
    Operating selfId config secretKey core := by
  refine reachable.invariant (Operating selfId config secretKey) ?_ ?_
  · rintro start rfl
    exact .init configured
  · intro core event _ operating enabled
    exact operating.step enabled

/-- What holds in every state of a correctly configured replica. -/
structure ReplicaReached (collisionFree : CollisionFree)
    (selfId : ReplicaID) (config : ReplicaConfig) (secretKey : SecretKey)
    (core : HotstuffCore) : Prop where
  valid : core.Valid collisionFree
  configured : core.Configured
  sameId : core.selfId = selfId
  sameConfig : core.config = config
  sameKey : core.secretKey = secretKey
  failed : core.failed = none ∨ core.failed = some .safetyBreached
  accepted : ∀ wireBlock ∈ core.proposedWires, ∀ source,
    ((HotstuffBlock.receiveBlock wireBlock source).validateHotstuff
      config).1 = .ok true

theorem ReplicaReached.operating {core : HotstuffCore}
    (reached : ReplicaReached collisionFree selfId config secretKey core) :
    Operating selfId config secretKey core :=
  { reached with anchored := reached.valid.anchored }

theorem ReplicaReached.step {core : HotstuffCore}
    (reached : ReplicaReached collisionFree selfId config secretKey core)
    {event : HotstuffCore.Event} (enabled : core.Enabled event) :
    ReplicaReached collisionFree selfId config secretKey
      (core.step event) := by
  have sends := reached.valid.anchored.sends_step event
  refine { reached.operating.step enabled with
    valid := reached.valid.step reached.configured enabled, accepted := ?_ }
  intro wireBlock member source
  rw [sends.proposedWires] at member
  rcases List.mem_append.mp member with new | old
  · -- A minted block carries the highest certificate and its own body hash.
    have minted : ∃ body, wireBlock = (core.minted body).wireBlock := by
      cases event with
      | doPropose body => exact ⟨body, List.mem_singleton.mp new⟩
      | doEmptyPropose body => exact ⟨body, List.mem_singleton.mp new⟩
      | _ => cases new
    obtain ⟨body, rfl⟩ := minted
    refine (HotstuffBlock.validateHotstuff_new (core.minted body).wireBlock
      source config).mpr ⟨rfl, ?_⟩
    rw [← reached.sameConfig]
    exact reached.valid.hqcVerified
  · exact reached.accepted wireBlock old source

theorem replicaReached_of_reachable (collisionFree : CollisionFree)
    (configured : (HotstuffCore.init selfId config secretKey).Configured)
    {core : HotstuffCore}
    (reachable : (replicaSystem selfId config secretKey).Reachable core) :
    ReplicaReached collisionFree selfId config secretKey core := by
  refine reachable.invariant
    (ReplicaReached collisionFree selfId config secretKey) ?_ ?_
  · rintro core rfl
    refine { Operating.init configured with
      valid := .init selfId config secretKey, accepted := ?_ }
    intro wireBlock member
    cases member
  · intro core event _ reached enabled
    exact reached.step enabled

/-- In every state that a correctly configured replica reaches, the highest
certified block and the leaf are in the block store, the leaf extends the
highest certified block, and the highest certificate is a verifying certificate
for it.  Proposing never fails, and every proposed block is accepted by all
replicas with the same configuration. -/
theorem own_proposals_well_formed (collisionFree : CollisionFree)
    (configured : (HotstuffCore.init selfId config secretKey).Configured)
    {core : HotstuffCore}
    (reachable : (replicaSystem selfId config secretKey).Reachable core) :
    (core.store.getBlock (core.store.hash core.hqc.1)).isSome ∧
    (core.store.getBlock (core.store.hash core.bLeaf)).isSome ∧
    (headerForest collisionFree).Ancestor (core.store.hash core.hqc.1)
      (core.store.hash core.bLeaf) ∧
    core.hqc.2.justify = core.store.hash core.hqc.1 ∧
    (QuorumCertificate.ofWire core.hqc.2).verify config = .ok true ∧
    core.failed ≠ some .failedToInsertMintedBlock ∧
    (∀ body,
      (core.doPropose body).failed ≠ some .failedToInsertMintedBlock ∧
      (core.doEmptyPropose body).failed ≠ some .failedToInsertMintedBlock) ∧
    ∀ wireBlock ∈ core.proposedWires, ∀ source,
      ((HotstuffBlock.receiveBlock wireBlock source).validateHotstuff
        config).1 = .ok true := by
  have reached := replicaReached_of_reachable collisionFree configured reachable
  have valid := reached.valid
  have notFailed : core.failed ≠ some .failedToInsertMintedBlock := by
    rcases reached.failed with none | breached
    · simp [none]
    · simp [breached]
  refine ⟨valid.anchored.getBlock_isSome valid.hqcPlaced,
    valid.anchored.getBlock_isSome valid.leafPlaced, valid.leafExtends, valid.hqcHash,
    ?_, notFailed, ?_, reached.accepted⟩
  · rw [← reached.sameConfig]
    exact valid.hqcVerified
  · intro body
    rw [HotstuffCore.doPropose, HotstuffCore.doEmptyPropose,
      (valid.anchored.proposeBody _ body).2,
      (valid.anchored.proposeBody _ body).2]
    exact ⟨notFailed, notFailed⟩

end Runs

/-! ### A concrete run -/

namespace Symbolic

open scoped Symbolic

/-- Four replicas, each with its id as key. -/
def fourReplicas : ReplicaConfig :=
  match ReplicaConfig.build (replicas 4) with
  | .ok config => config
  | .error _ => .empty

/-- The vote of a replica on a hash. -/
def voteOf (voter : ReplicaID) (hash : Hash) : PartialCertificate :=
  PartialCertificate.sign hash (voter : Nat)

theorem init_configured (selfId : ReplicaID) (configured : selfId < 4) :
    (HotstuffCore.init selfId fourReplicas selfId).Configured where
  idsSmall := by
    change ∀ rid ∈ fourReplicas.ids, rid < maxReplicas
    decide
  selfSigns := by
    intro hash
    have key : fourReplicas.getPublickey selfId = .ok selfId := by
      interval_cases selfId <;> rfl
    change QuorumCertificate.signerValid fourReplicas hash
      (selfId, cryptoSign hash selfId) = true
    rw [QuorumCertificate.signerValid]
    simp only [key]
    exact checkSig_cryptoSign hash selfId

/-- Replica `0` proposes, collects a quorum for its block and proposes again. -/
def proposeTwice : List HotstuffCore.Event :=
  let first : Hash := hashHeader
    (HotstuffBlock.mintBlock [7] HotstuffBlock.genesisBlock.selfQc.serialize
      zeroHash 0).wireBlock.header
  [.doPropose [7], .proposal 1 0, .selfVote 1, .vote (voteOf 1 first) 1 1,
    .vote (voteOf 2 first) 1 2, .doPropose [8]]

end Symbolic

open scoped Symbolic in
theorem own_proposals_proposeTwice :
    ∃ core, (replicaSystem 0 Symbolic.fourReplicas (0 : Nat)).Reachable core ∧
      core.hqc.1 = 1 ∧ core.bLeaf = 2 ∧ core.proposedWires.length = 2 ∧
      (QuorumCertificate.ofWire core.hqc.2).verify Symbolic.fourReplicas =
        .ok true := by
  have reachable : (replicaSystem 0 Symbolic.fourReplicas (0 : Nat)).Reachable
      ((replicaSystem 0 Symbolic.fourReplicas (0 : Nat)).run
        (.init 0 Symbolic.fourReplicas (0 : Nat)) Symbolic.proposeTwice) := by
    refine .run (.initial rfl) ?_
    decide +kernel
  obtain ⟨-, -, -, -, verified, -⟩ := own_proposals_well_formed
    Symbolic.collisionFree (Symbolic.init_configured 0 (by decide)) reachable
  refine ⟨_, reachable, ?_, ?_, ?_, verified⟩ <;> decide +kernel

end Hotstuff
