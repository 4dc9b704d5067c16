import Hotstuff.CertifiedChain
import Hotstuff.OwnProposals

/-!
# Where certificates and blocks come from

A replica neither makes up signatures nor blocks.  Every signature in one of its
certificates was in a block that it received or in a vote, and every block whose
body is still in memory is a block that it has received or proposed.  Together
with what replicas may receive, this makes all certificates of a deployment
unforged and all blocks proposed ones.
-/

namespace Hotstuff

section Provenance

variable [WireTypes] [Externals]

namespace HotstuffCore

variable {core after : HotstuffCore} {hash : Hash}
  {signer : ReplicaID × Signature}

/-! ### Signatures -/

/-- The replica has the signature on the hash, in its highest certificate, in
the certificate of a header, or among the votes on a block. -/
inductive Knows (core : HotstuffCore) (hash : Hash)
    (signer : ReplicaID × Signature) : Prop
  | hqc (hashEq : core.hqc.2.justify = hash)
      (member : signer ∈ (QuorumCertificate.ofWire core.hqc.2).sigs.entries)
  | header (p : BlockPtr) (notGenesis : p ≠ 0)
      (bound : p < core.store.heap.length)
      (hashEq : (core.block p).wireBlock.header.qc.justify = hash)
      (member : signer ∈ (QuorumCertificate.ofWire
        (core.block p).wireBlock.header.qc).sigs.entries)
  | votes (p : BlockPtr) (bound : p < core.store.heap.length)
      (hashEq : core.store.hash p = hash)
      (member : signer ∈ (core.block p).selfQc.sigs.entries)

/-- The signatures that come with an event. -/
def Event.Brings (core : HotstuffCore) (hash : Hash)
    (signer : ReplicaID × Signature) : Event → Prop
  | .receiveBlock wireBlock _ => wireBlock.header.qc.justify = hash ∧
      signer ∈ (QuorumCertificate.ofWire wireBlock.header.qc).sigs.entries
  | .vote cert _ voter => cert.hash = hash ∧ signer = (voter, cert.sig)
  | .selfVote p => core.store.hash p = hash ∧ signer.1 = core.selfId
  | _ => False

/-- A property of block objects is the same after a step. -/
structure Keeps {Property : Type} (property : HotstuffBlock → Property)
    (core after : HotstuffCore) : Prop where
  length : after.store.heap.length = core.store.heap.length
  blocks : ∀ p, property (after.block p) = property (core.block p)

section Properties

variable {Property : Type} {property : HotstuffBlock → Property}

omit [Externals] in
theorem Keeps.trans {middle : HotstuffCore}
    (first : Keeps property core middle)
    (second : Keeps property middle after) : Keeps property core after :=
  ⟨second.length.trans first.length,
    fun p => (second.blocks p).trans (first.blocks p)⟩

omit [Externals] in
theorem keeps_of_store (same : after.store = core.store) :
    Keeps property core after := by
  refine ⟨by rw [same], fun p => ?_⟩
  rw [block, same, block]

omit [Externals] in
theorem keeps_insertBlock
    (linked : ∀ (block : HotstuffBlock) (parent justify : BlockPtr)
      (height : Nat), property
        { block with
          parentBlockPtr := some parent
          blockHeight := height
          justifyBlockPtr := some justify } = property block)
    (core : HotstuffCore) (p : BlockPtr) :
    Keeps property core
      { core with store := (core.store.insertBlock p).1 } where
  length := BlockStore.length_insertBlock core.store p
  blocks := BlockStore.property_insertBlock property linked core.store p

/-- `update` marks blocks as written and decided. -/
theorem keeps_update
    (written : ∀ block, property (.markWritten block) = property block)
    (decided : ∀ block, property (.markDecided block) = property block)
    (core : HotstuffCore) (nblk : BlockPtr) :
    Keeps property core (core.update nblk) := by
  have locked (blk2 blk1 : BlockPtr) : Keeps property core ((core.updateHqc
      blk2 (core.block nblk).getJustifyQc).lockAndWrite blk1) :=
    (keeps_of_store (updateHqc_store _ _ _)).trans
      ⟨(sameTree_lockAndWrite _ blk1).length,
        property_lockAndWrite property written _ blk1⟩
  have committed (core : HotstuffCore) (commitQueue : List BlockPtr)
      (blk : BlockPtr) (qc : QuorumCertificate) :
      Keeps property core (core.commit commitQueue blk qc) :=
    ⟨property_foldl_commitBlock (fun core => core.store.heap.length)
      (fun core q => BlockStore.length_modifyBlock core.store q .markDecided)
      core commitQueue.reverse,
    fun p => property_foldl_commitBlock (fun core => property (core.block p))
      (fun core q => BlockStore.property_modifyBlock property .markDecided
        decided core.store q p)
      core commitQueue.reverse⟩
  have outcome := update_result core nblk
  generalize core.update nblk = after at outcome ⊢
  cases outcome with
  | skip => exact keeps_of_store rfl
  | certificate => exact keeps_of_store (updateHqc_store _ _ _)
  | lock => exact locked _ _
  | fail => exact (locked _ _).trans (keeps_of_store rfl)
  | commit => exact (locked _ _).trans (committed _ _ _ _)

theorem keeps_onReceiveVote
    (voted : ∀ block qc, property (.withSelfQc qc block) = property block)
    (core : HotstuffCore) (cert : PartialCertificate) (p : BlockPtr)
    (voter : ReplicaID) :
    Keeps property core (core.onReceiveVote cert p voter) := by
  have withVote (extended : QuorumCertificate) :
      Keeps property core (core.withVote p extended) :=
    ⟨BlockStore.length_modifyBlock _ _ _, BlockStore.property_modifyBlock
      property (.withSelfQc extended) (voted · extended) core.store p⟩
  rcases core.onReceiveVote_cases cert p voter with
    ⟨message, -, result⟩ | ⟨extended, -, ⟨-, -, result⟩ | result⟩ <;>
    rw [result]
  · exact keeps_of_store rfl
  · exact (withVote extended).trans (keeps_of_store
      (updateHqc_store (core.withVote p extended) p extended))
  · exact withVote extended

end Properties

/-- The certificates of a block object. -/
def papers (block : HotstuffBlock) : HotstuffBlockHeader × QuorumCertificate :=
  (block.wireBlock.header, block.selfQc)

/-- When the papers stay, a new highest certificate is the only news. -/
theorem Keeps.knows (keeps : Keeps papers core after)
    (hqc : after.hqc.2 = core.hqc.2 ∨
      ∀ signer ∈ (QuorumCertificate.ofWire after.hqc.2).sigs.entries,
        core.Knows after.hqc.2.justify signer)
    (knows : after.Knows hash signer) : core.Knows hash signer := by
  cases knows with
  | hqc hashEq member =>
      rcases hqc with same | known
      · rw [same] at hashEq member
        exact .hqc hashEq member
      · rw [← hashEq]
        exact known signer member
  | header p notGenesis bound hashEq member =>
      have same : (after.block p).wireBlock.header =
          (core.block p).wireBlock.header :=
        congrArg Prod.fst (keeps.blocks p)
      rw [same] at hashEq member
      exact .header p notGenesis (keeps.length ▸ bound) hashEq member
  | votes p bound hashEq member =>
      have same : (after.block p).selfQc = (core.block p).selfQc :=
        congrArg Prod.snd (keeps.blocks p)
      have sameHash : after.store.hash p = core.store.hash p :=
        congrArg QuorumCertificate.objHash same
      rw [same] at member
      rw [sameHash] at hashEq
      exact .votes p (keeps.length ▸ bound) hashEq member

theorem knows_update (anchored : core.Anchored) (nblk : BlockPtr)
    (knows : (core.update nblk).Knows hash signer) :
    core.Knows hash signer := by
  refine (keeps_update (fun _ => rfl) (fun _ => rfl) core nblk).knows ?_ knows
  rcases proposing_update core nblk with same | ⟨blk2, names2, moved⟩
  · exact .inl (congrArg (fun proposing => proposing.2.2) same)
  rcases core.proposing_updateHqc blk2 (core.block nblk).getJustifyQc with
    same | ⟨-, raised⟩
  · exact .inl (congrArg (fun proposing => proposing.2.2) (moved.trans same))
  right
  -- the certificate in the header of the block
  have linked := anchored.tree.linked_of_justify names2
  have notGenesis := anchored.tree.ne_zero_of_linked linked
  have bound := BlockStore.WellFormed.lt_of_linked linked
  have justifyQc : (core.block nblk).getJustifyQc =
      .ofWire (core.block nblk).wireBlock.header.qc := by
    rw [HotstuffBlock.getJustifyQc, block,
      (anchored.tree.hashed nblk notGenesis bound).2]
    rfl
  have hqc : (core.update nblk).hqc.2 =
      (core.block nblk).getJustifyQc.serialize :=
    congrArg (fun proposing => proposing.2.2) (moved.trans raised)
  intro signer member
  rw [hqc, justifyQc, QuorumCertificate.ofWire_serialize
    (QuorumCertificate.keys_ofWire_lt _)] at member
  rw [hqc, justifyQc]
  exact .header nblk notGenesis bound
    (QuorumCertificate.objHash_ofWire _).symm member

theorem knows_withVote {cert : PartialCertificate} {p : BlockPtr}
    {voter : ReplicaID} {extended : QuorumCertificate}
    (added : (core.block p).selfQc.addPartialCertificate voter cert =
      .ok extended)
    (knows : (core.withVote p extended).Knows hash signer) :
    core.Knows hash signer ∨
      core.store.hash p = hash ∧ signer = (voter, cert.sig) := by
  have same := sameTree_withVote added
  cases knows with
  | hqc hashEq member => exact .inl (.hqc hashEq member)
  | header q notGenesis bound hashEq member =>
      have header : ((core.withVote p extended).block q).wireBlock.header =
          (core.block q).wireBlock.header :=
        BlockStore.property_modifyBlock (fun block => block.wireBlock.header)
          (.withSelfQc extended) (fun _ => rfl) core.store p q
      rw [header] at hashEq member
      exact .inl (.header q notGenesis (same.length ▸ bound) hashEq member)
  | votes q bound hashEq member =>
      have inside : q < core.store.heap.length := same.length ▸ bound
      rw [same.hash q] at hashEq
      rw [block, withVote, BlockStore.block_modifyBlock] at member
      split at member
      · rename_i both
        obtain ⟨rfl, -⟩ := both
        rcases (QuorumCertificate.addPartialCertificate_cases added).2 signer
          member with old | new
        · exact .inl (.votes p inside hashEq old)
        · exact .inr ⟨hashEq, new⟩
      · exact .inl (.votes q inside hashEq member)

theorem knows_onReceiveVote (anchored : core.Anchored)
    {cert : PartialCertificate} {p : BlockPtr} {voter : ReplicaID}
    (good : core.GoodVote cert p voter)
    (knows : (core.onReceiveVote cert p voter).Knows hash signer) :
    core.Knows hash signer ∨
      core.store.hash p = hash ∧ signer = (voter, cert.sig) := by
  rcases core.onReceiveVote_cases cert p voter with
    ⟨message, rejected, -⟩ | ⟨extended, added, outcome⟩
  · obtain ⟨_, accepted⟩ := good.added
    rw [accepted] at rejected
    cases rejected
  apply knows_withVote added
  rcases outcome with ⟨quorum, -, result⟩ | result
  swap
  · rwa [result] at knows
  rw [result] at knows
  have bound := anchored.tree.lt_of_placed good.placed
  have certifies := anchored.certifies_extended added good quorum
  have keeps : Keeps papers (core.withVote p extended)
      (((core.withVote p extended).updateHqc p extended).emit (.onNewQc
        ((core.withVote p extended).block p).getHash)) :=
    keeps_of_store (updateHqc_store (core.withVote p extended) p extended)
  refine keeps.knows ?_ knows
  rcases (core.withVote p extended).proposing_updateHqc p extended with
    same | ⟨-, raised⟩
  · exact .inl (congrArg (fun proposing => proposing.2.2) same)
  right
  have hqc : ((core.withVote p extended).updateHqc p extended).hqc.2 =
      extended.serialize := congrArg (fun proposing => proposing.2.2) raised
  intro signer member
  change signer ∈ (QuorumCertificate.ofWire ((core.withVote p
    extended).updateHqc p extended).hqc.2).sigs.entries at member
  change Knows _ ((core.withVote p extended).updateHqc p
    extended).hqc.2.justify signer
  rw [hqc, QuorumCertificate.ofWire_serialize certifies.small] at member
  rw [hqc]
  refine .votes p ((sameTree_withVote added).length ▸ bound)
    certifies.objHash.symm ?_
  rw [selfQc_withVote core extended bound]
  exact member

/-- A new block object brings the certificate of its header. -/
theorem knows_alloc {block : HotstuffBlock}
    (noVotes : block.selfQc.sigs.entries = [])
    (knows : Knows { core with store := (core.store.alloc block).1 } hash
      signer) :
    core.Knows hash signer ∨ block.wireBlock.header.qc.justify = hash ∧
      signer ∈
        (QuorumCertificate.ofWire block.wireBlock.header.qc).sigs.entries := by
  cases knows with
  | hqc hashEq member => exact .inl (.hqc hashEq member)
  | header p notGenesis bound hashEq member =>
      rw [HotstuffCore.block, BlockStore.block_alloc] at hashEq member
      split at member
      · rename_i new
        rw [if_pos new] at hashEq
        exact .inr ⟨hashEq, member⟩
      · rename_i old
        rw [if_neg old] at hashEq
        exact .inl (.header p notGenesis (BlockStore.lt_of_alloc bound old)
          hashEq member)
  | votes p bound hashEq member =>
      rw [HotstuffCore.block, BlockStore.block_alloc] at member
      rw [BlockStore.hash, BlockStore.block_alloc] at hashEq
      split at member
      · rw [noVotes] at member
        cases member
      · rename_i old
        rw [if_neg old] at hashEq
        exact .inl (.votes p (BlockStore.lt_of_alloc bound old) hashEq member)

/-- A minted block carries the highest certificate. -/
theorem knows_proposeBody (anchored : core.Anchored) {nonemptyProposal : Bool}
    {body : Body}
    (knows : (core.proposeBody nonemptyProposal body).Knows hash signer) :
    core.Knows hash signer := by
  have keeps : Keeps papers
      { core with store := (core.store.alloc (core.minted body)).1 }
      (core.proposeBody nonemptyProposal body) :=
    (keeps_insertBlock (fun _ _ _ _ => rfl) _ core.store.heap.length).trans
      (keeps_of_store (store_proposeBody core nonemptyProposal body))
  have sameHqc : (core.proposeBody nonemptyProposal body).hqc.2 =
      core.hqc.2 := by
    rw [anchored.proposeBody_eq]
  rcases knows_alloc rfl (keeps.knows (.inl sameHqc) knows) with
    old | ⟨hashEq, member⟩
  · exact old
  · exact .hqc hashEq member

/-- The signatures that a replica has after an event were there before, or they
came with the event. -/
theorem Anchored.knows_step (anchored : core.Anchored)
    (configured : core.Configured) {event : Event}
    (enabled : core.Enabled event)
    (knows : (core.step event).Knows hash signer) :
    core.Knows hash signer ∨ event.Brings core hash signer := by
  cases event with
  | receiveBlock wireBlock source =>
      have fresh := freshBlock_received enabled
      have header := HotstuffBlock.property_validateHotstuff
        (fun block => block.wireBlock.header) (fun _ _ => rfl)
        (HotstuffBlock.receiveBlock wireBlock source) core.config
      rcases knows_alloc fresh.noVotes knows with old | ⟨hashEq, member⟩
      · exact .inl old
      · rw [header] at hashEq member
        exact .inr ⟨hashEq, member⟩
  | insertBlock p =>
      exact .inl ((keeps_insertBlock (fun _ _ _ _ => rfl) core p).knows
        (.inl rfl) knows)
  | vote cert p voter =>
      have good := anchored.goodVote configured enabled
      rcases knows_onReceiveVote anchored good knows with old | ⟨hashEq, new⟩
      · exact .inl old
      · exact .inr ⟨good.hashEq.trans hashEq, new⟩
  | selfVote p =>
      have good := anchored.goodSelfVote configured enabled.2
      rcases knows_onReceiveVote anchored good knows with old | ⟨hashEq, new⟩
      · exact .inl old
      · exact .inr ⟨hashEq, congrArg Prod.fst new⟩
  | proposal p proposer =>
      left
      have placed := anchored.placed_of_height enabled.2.1
      rcases onReceiveProposal_cases anchored.tree p proposer with
        ⟨-, result⟩ | ⟨-, result⟩
      · rw [HotstuffCore.step, result] at knows
        have keeps : Keeps papers core (core.castVote p proposer) :=
          keeps_of_store rfl
        exact keeps.knows (.inl rfl)
          (knows_update (anchored.castVote placed proposer) p knows)
      · rw [HotstuffCore.step, result] at knows
        exact knows_update anchored p knows
  | doPropose body => exact .inl (knows_proposeBody anchored knows)
  | doEmptyPropose body => exact .inl (knows_proposeBody anchored knows)
  | garbageCollect =>
      have keeps : Keeps papers core (core.step .garbageCollect) :=
        ⟨(BlockStore.sameTree_runGc core.store).length,
          BlockStore.property_runGc papers (by
            intro block
            unfold BlockStore.flushFromMemory
            split <;> rfl) core.store⟩
      exact .inl (keeps.knows (.inl rfl) knows)

/-! ### What is sent -/

/-- The votes and proposals of an event. -/
def newlySent (core : HotstuffCore) : Event → List Effect
  | .proposal p proposer =>
      if core.opinion p = some true then
        [.doVote p (PartialCertificate.sign (core.store.hash p) core.secretKey)
          proposer]
      else []
  | .doPropose body | .doEmptyPropose body =>
      [.broadcastProposal core.store.heap.length (core.minted body).wireBlock]
  | _ => []

omit [Externals] in
theorem Internal.sent (internal : Internal core after) :
    ∃ effects, after.trace = effects ++ core.trace ∧
      effects.filter Effect.isSent = [] := by
  obtain ⟨effects, traceEq, silent⟩ := internal.trace
  refine ⟨effects, traceEq, List.filter_eq_nil_iff.mpr ?_⟩
  intro effect member
  rw [silent effect member]
  nofun

/-- The trace only grows, by what an event sends and by internal effects. -/
theorem Anchored.trace_step (anchored : core.Anchored) (event : Event) :
    ∃ effects, (core.step event).trace = effects ++ core.trace ∧
      effects.filter Effect.isSent = core.newlySent event := by
  cases event with
  | receiveBlock | insertBlock | garbageCollect => exact ⟨[], rfl, rfl⟩
  | vote cert p voter => exact (internal_onReceiveVote core cert p voter).sent
  | selfVote p => exact (internal_onReceiveVote core _ p core.selfId).sent
  | proposal p proposer =>
      rcases onReceiveProposal_cases anchored.tree p proposer with
        ⟨favourable, result⟩ | ⟨unfavourable, result⟩
      · obtain ⟨effects, traceEq, silent⟩ :=
          (internal_update (core.castVote p proposer) p).sent
        rw [HotstuffCore.step, result, newlySent, if_pos favourable, traceEq]
        refine ⟨effects ++ [.doVote p
          (PartialCertificate.sign (core.store.hash p) core.secretKey)
          proposer], ?_, ?_⟩
        · rw [List.append_assoc]
          rfl
        · rw [List.filter_append, silent]
          rfl
      · rw [HotstuffCore.step, result, newlySent, if_neg (by simp [unfavourable])]
        exact (internal_update core p).sent
  | doPropose body | doEmptyPropose body =>
      rw [HotstuffCore.step]
      first | unfold doPropose | unfold doEmptyPropose
      rw [anchored.proposeBody_eq]
      exact ⟨_, rfl, rfl⟩

theorem Anchored.sent_step (anchored : core.Anchored) {event : Event}
    {effect : Effect} (member : effect ∈ (core.step event).trace)
    (sent : effect.isSent = true) :
    effect ∈ core.trace ∨ effect ∈ core.newlySent event := by
  obtain ⟨effects, traceEq, newEq⟩ := anchored.trace_step event
  rw [traceEq] at member
  rcases List.mem_append.mp member with new | old
  · right
    rw [← newEq]
    exact List.mem_filter.mpr ⟨new, sent⟩
  · exact .inl old

/-- Votes are sent to configured replicas, and proposed blocks are stored. -/
structure Issued (core : HotstuffCore) : Prop where
  votes : ∀ p cert target, .doVote p cert target ∈ core.trace →
    core.config.isValidReplica target = true
  proposals : ∀ p wireBlock, .broadcastProposal p wireBlock ∈ core.trace →
    (core.block p).Linked ∧
      (core.block p).wireBlock.header = wireBlock.header

theorem Anchored.linked_minted (anchored : core.Anchored) (body : Body) :
    ((core.mintedStore body).1.block core.store.heap.length).Linked ∧
      ((core.mintedStore body).1.block
        core.store.heap.length).wireBlock.header =
          (core.minted body).wireBlock.header := by
  obtain ⟨-, -, -, parent, edge, -⟩ := anchored.mintedStore body
  constructor
  · rw [HotstuffBlock.Linked, show _ = some parent from edge]
    rfl
  · rw [HotstuffCore.mintedStore, BlockStore.property_insertBlock
        (fun block => block.wireBlock.header) (fun _ _ _ _ => rfl),
      BlockStore.block_alloc, if_pos rfl]

theorem Issued.step (issued : core.Issued) (anchored : core.Anchored)
    {event : Event} (enabled : core.Enabled event) :
    (core.step event).Issued := by
  have sameConfig := (anchored.sends_step event).config
  have longer := (grows_step anchored.tree enabled).2
  constructor
  case votes =>
    intro p cert target member
    rw [sameConfig]
    rcases anchored.sent_step member rfl with old | new
    · exact issued.votes p cert target old
    cases event with
    | proposal q proposer =>
        rw [newlySent] at new
        split at new
        · obtain ⟨-, -, rfl⟩ := Effect.doVote.inj (List.mem_singleton.mp new)
          exact enabled.2.2
        · cases new
    | doPropose | doEmptyPropose => cases List.mem_singleton.mp new
    | _ => cases new
  case proposals =>
    intro p wireBlock member
    rcases anchored.sent_step member rfl with old | new
    · obtain ⟨linked, header⟩ := issued.proposals p wireBlock old
      have same := longer.links p (.inr linked)
      exact ⟨(BlockStore.linked_of_links same).mpr linked,
        (congrArg HotstuffBlock.Links.header same).trans header⟩
    cases event with
    | proposal q proposer =>
        rw [newlySent] at new
        split at new
        · cases List.mem_singleton.mp new
        · cases new
    | doPropose body | doEmptyPropose body =>
        obtain ⟨rfl, rfl⟩ :=
          Effect.broadcastProposal.inj (List.mem_singleton.mp new)
        rw [HotstuffCore.step]
        first | unfold doPropose | unfold doEmptyPropose
        rw [block, store_proposeBody]
        exact anchored.linked_minted body
    | _ => cases new

/-! ### Blocks in memory -/

/-- The block as it was received or minted, unless its body is flushed. -/
def inMemory (block : HotstuffBlock) : Option HotstuffBlockWire :=
  if block.flushedFromMemory then none else some block.wireBlock

omit [Externals] in
theorem inMemory_flushFromMemory (block : HotstuffBlock) :
    inMemory (BlockStore.flushFromMemory block) = none := by
  unfold BlockStore.flushFromMemory
  split
  · rename_i flushed
    exact if_pos flushed
  · rfl

omit [Externals] in
theorem inMemory_gcLoop (hotstuffHeight rounds iter : Nat) (store : BlockStore)
    (p : BlockPtr) {wireBlock : HotstuffBlockWire}
    (kept : inMemory ((BlockStore.gcLoop hotstuffHeight rounds iter
      store).block p) = some wireBlock) :
    inMemory (store.block p) = some wireBlock := by
  induction rounds generalizing iter store with
  | zero => exact kept
  | succ rounds ih =>
      unfold BlockStore.gcLoop at kept
      split at kept
      · exact kept
      · dsimp only at kept
        split at kept
        · have before := ih _ _ kept
          change inMemory ((store.modifyBlock _ _).block p) = _ at before
          rw [BlockStore.block_modifyBlock] at before
          split at before
          · rw [inMemory_flushFromMemory] at before
            cases before
          · exact before
        · exact ih _ _ kept

omit [Externals] in
theorem inMemory_runGc (store : BlockStore) (p : BlockPtr)
    {wireBlock : HotstuffBlockWire}
    (kept : inMemory (store.runGc.block p) = some wireBlock) :
    inMemory (store.block p) = some wireBlock := by
  unfold BlockStore.runGc at kept
  split at kept
  · exact kept
  · have before := inMemory_gcLoop _ _ _ _ p kept
    exact before

omit [Externals] in
theorem inMemory_alloc (store : BlockStore) (block : HotstuffBlock)
    (p : BlockPtr) :
    inMemory ((store.alloc block).1.block p) =
      if p = store.heap.length then inMemory block
      else inMemory (store.block p) := by
  rw [BlockStore.block_alloc]
  split <;> rfl

/-- Without garbage collection blocks stay in memory, and others come with
events. -/
theorem inMemory_step_eq (tree : core.store.WellFormed) {event : Event}
    (notCollecting : event ≠ .garbageCollect) (p : BlockPtr) :
    inMemory ((core.step event).block p) =
      if p = core.store.heap.length then (core.newBlocks event).head?
      else inMemory (core.block p) := by
  -- outside of the heap there is only the genesis block
  have unchanged (same : inMemory ((core.step event).block p) =
        inMemory (core.block p)) (none : core.newBlocks event = []) :
      inMemory ((core.step event).block p) =
        if p = core.store.heap.length then (core.newBlocks event).head?
        else inMemory (core.block p) := by
    rw [same, none]
    split
    case isTrue outside =>
      rw [block, BlockStore.block_of_length_le (Nat.le_of_eq outside.symm)]
      rfl
    case isFalse => rfl
  have minted (nonemptyProposal : Bool) (body : Body) :
      inMemory ((core.proposeBody nonemptyProposal body).block p) =
        if p = core.store.heap.length then
          some (core.minted body).wireBlock
        else inMemory (core.block p) := by
    rw [block, store_proposeBody, mintedStore,
      BlockStore.property_insertBlock inMemory fun _ _ _ _ => rfl,
      inMemory_alloc]
    rfl
  cases event with
  | garbageCollect => exact (notCollecting rfl).elim
  | receiveBlock received source =>
      refine (inMemory_alloc core.store _ p).trans ?_
      rw [HotstuffBlock.property_validateHotstuff inMemory fun _ _ => rfl]
      rfl
  | insertBlock q =>
      exact unchanged (BlockStore.property_insertBlock inMemory
        (fun _ _ _ _ => rfl) core.store q p) rfl
  | vote cert q voter =>
      exact unchanged ((keeps_onReceiveVote (fun _ _ => rfl) core cert q
        voter).blocks p) rfl
  | selfVote q =>
      exact unchanged ((keeps_onReceiveVote (fun _ _ => rfl) core _ q
        core.selfId).blocks p) rfl
  | proposal q proposer =>
      refine unchanged ?_ rfl
      rcases onReceiveProposal_cases tree q proposer with
        ⟨-, result⟩ | ⟨-, result⟩ <;> rw [step, result]
      · exact (keeps_update (fun _ => rfl) (fun _ => rfl)
          (core.castVote q proposer) q).blocks p
      · exact (keeps_update (fun _ => rfl) (fun _ => rfl) core q).blocks p
  | doPropose body => exact minted _ body
  | doEmptyPropose body => exact minted _ body

/-- A block that is in memory after an event was there before, or the event has
brought it. -/
theorem inMemory_step (tree : core.store.WellFormed) (event : Event)
    {p : BlockPtr} {wireBlock : HotstuffBlockWire}
    (kept : inMemory ((core.step event).block p) = some wireBlock) :
    inMemory (core.block p) = some wireBlock ∨
      p = core.store.heap.length ∧ wireBlock ∈ core.newBlocks event := by
  by_cases collecting : event = .garbageCollect
  · subst collecting
    exact .inl (inMemory_runGc core.store p kept)
  · rw [inMemory_step_eq tree collecting] at kept
    split at kept
    case isTrue new => exact .inr ⟨new, List.mem_of_head? kept⟩
    case isFalse => exact .inl kept

end HotstuffCore

/-! ### Deployments -/

variable {deployment : Deployment} {state : SystemState}

namespace Deployment

/-- No replica has a forged signature, and every block in memory was
proposed. -/
structure Genuine (deployment : Deployment) (state : SystemState) : Prop where
  issued : ∀ rid, (state rid).Issued
  signatures : ∀ rid hash signer, (state rid).Knows hash signer →
    QuorumCertificate.signerValid deployment.config hash signer = true →
      signer.1 ∉ deployment.faulty → hash ∈ (state signer.1).votedHashes
  genesis : ∀ rid, HotstuffCore.inMemory ((state rid).block 0) = none
  blocks : ∀ rid p wireBlock,
    HotstuffCore.inMemory ((state rid).block p) = some wireBlock →
      deployment.Proposed state wireBlock
  proposals : ∀ wireBlock, deployment.Proposed state wireBlock →
    deployment.UnforgedQc state (.ofWire wireBlock.header.qc)
  /-- every replica takes a proposed block -/
  accepted : ∀ wireBlock, deployment.Proposed state wireBlock → ∀ source,
    ((HotstuffBlock.receiveBlock wireBlock source).validateHotstuff
      deployment.config).1 = .ok true

/-- What has been sent is not taken back. -/
structure SentBefore (state after : SystemState) : Prop where
  votedHashes : ∀ rid hash, hash ∈ (state rid).votedHashes →
    hash ∈ (after rid).votedHashes
  proposedWires : ∀ rid wireBlock, wireBlock ∈ (state rid).proposedWires →
    wireBlock ∈ (after rid).proposedWires

variable {after : SystemState}

omit [Externals] in
theorem SentBefore.proposed (before : SentBefore state after)
    {wireBlock : HotstuffBlockWire}
    (proposed : deployment.Proposed state wireBlock) :
    deployment.Proposed after wireBlock := by
  obtain ⟨rid, member, sent⟩ := proposed
  exact ⟨rid, member, before.proposedWires rid wireBlock sent⟩

theorem SentBefore.unforgedQc (before : SentBefore state after)
    {qc : QuorumCertificate} (unforged : deployment.UnforgedQc state qc) :
    deployment.UnforgedQc after qc := by
  intro entry member signed correct
  exact before.votedHashes _ _ (unforged entry member signed correct)

omit [Externals] in
theorem SentBefore.update {rid : ReplicaID} {core : HotstuffCore}
    {votes : List Hash} {proposals : List HotstuffBlockWire}
    (sends : (state rid).Sends core votes proposals) :
    SentBefore state (Function.update state rid core) := by
  constructor
  · intro other hash member
    by_cases same : other = rid
    · subst same
      rw [Function.update_self, sends.votedHashes]
      exact List.mem_append_right _ member
    · rwa [Function.update_of_ne same]
  · intro other wireBlock member
    by_cases same : other = rid
    · subst same
      rw [Function.update_self, sends.proposedWires]
      exact List.mem_append_right _ member
    · rwa [Function.update_of_ne same]

theorem Genuine.start (deployment : Deployment) :
    deployment.Genuine deployment.start := by
  have genesis (rid : ReplicaID) (p : BlockPtr) :
      (deployment.start rid).block p = .genesisBlock := by
    cases p <;> rfl
  constructor
  · exact fun rid => ⟨nofun, nofun⟩
  · intro rid hash signer knows
    cases knows with
    | hqc _ member =>
        change signer ∈ (QuorumCertificate.ofWire
          (QuorumCertificate.new zeroHash).serialize).sigs.entries at member
        rw [QuorumCertificate.ofWire_serialize (by nofun)] at member
        cases member
    | header p notGenesis bound => exact (notGenesis (Nat.lt_one_iff.mp bound)).elim
    | votes p bound _ member =>
        rw [genesis] at member
        cases member
  · intro rid
    rw [genesis]
    rfl
  · intro rid p wireBlock held
    rw [genesis] at held
    cases held
  · rintro wireBlock ⟨rid, -, sent⟩
    cases sent
  · rintro wireBlock ⟨rid, -, sent⟩
    cases sent

section Step

variable {rid : ReplicaID} {event : HotstuffCore.Event}
  {collisionFree : CollisionFree}

/-- An event of the system keeps everything genuine. -/
theorem Genuine.step (genuine : deployment.Genuine state)
    (valid : (state rid).Valid collisionFree)
    (coreConfigured : (state rid).Configured)
    (sameConfig : (state rid).config = deployment.config)
    (sameId : (state rid).selfId = rid)
    (allowed : deployment.honestProposerSystem.enabled state (rid, event)) :
    deployment.Genuine
      (deployment.honestProposerSystem.next state (rid, event)) := by
  obtain ⟨member, enabled, unforged, delivers, -⟩ := allowed
  have sends := valid.anchored.sends_step event
  have before : SentBefore state
      (Function.update state rid ((state rid).step event)) := .update sends
  have splits (wireBlock : HotstuffBlockWire) (proposed : deployment.Proposed
      (Function.update state rid ((state rid).step event)) wireBlock) :
      deployment.Proposed state wireBlock ∨
        ∃ body, wireBlock = ((state rid).minted body).wireBlock := by
    obtain ⟨other, otherMember, sent⟩ := proposed
    by_cases same : other = rid
    · subst same
      rw [Function.update_self, sends.proposedWires] at sent
      rcases List.mem_append.mp sent with new | old
      · cases event with
        | doPropose body | doEmptyPropose body =>
            exact .inr ⟨body, List.mem_singleton.mp new⟩
        | _ => cases new
      · exact .inl ⟨other, otherMember, old⟩
    · rw [Function.update_of_ne same] at sent
      exact .inl ⟨other, otherMember, sent⟩
  change deployment.Genuine
    (Function.update state rid ((state rid).step event))
  constructor
  case issued =>
    intro other
    by_cases same : other = rid
    · subst same
      rw [Function.update_self]
      exact (genuine.issued other).step valid.anchored enabled
    · rw [Function.update_of_ne same]
      exact genuine.issued other
  case signatures =>
    intro other hash signer knows signed correct
    apply before.votedHashes
    by_cases same : other = rid
    · subst same
      rw [Function.update_self] at knows
      rcases valid.anchored.knows_step coreConfigured enabled knows with
        old | brought
      · exact genuine.signatures other hash signer old signed correct
      cases event with
      | receiveBlock wireBlock source =>
          obtain ⟨rfl, inside⟩ := brought
          have voted := unforged signer inside
          rw [QuorumCertificate.objHash_ofWire] at voted
          exact voted signed correct
      | vote cert p voter =>
          obtain ⟨rfl, rfl⟩ := brought
          exact unforged correct
      | selfVote p =>
          obtain ⟨rfl, self⟩ := brought
          rw [self, sameId]
          exact valid.voted_of_votedToSelf enabled.2
      | _ => exact brought.elim
    · rw [Function.update_of_ne same] at knows
      exact genuine.signatures other hash signer knows signed correct
  case genesis =>
    intro other
    by_cases same : other = rid
    · subst same
      rw [Function.update_self]
      apply Option.eq_none_iff_forall_ne_some.mpr
      intro wireBlock held
      rcases HotstuffCore.inMemory_step valid.tree event held with
        old | ⟨empty, -⟩
      · cases (genuine.genesis other).symm.trans old
      · exact valid.tree.nonempty.ne empty
    · rw [Function.update_of_ne same]
      exact genuine.genesis other
  case blocks =>
    intro other p wireBlock held
    by_cases same : other = rid
    · subst same
      rw [Function.update_self] at held
      rcases HotstuffCore.inMemory_step valid.tree event held with
        old | ⟨-, new⟩
      · exact before.proposed (genuine.blocks other p wireBlock old)
      cases event with
      | receiveBlock received source =>
          obtain rfl := List.mem_singleton.mp new
          exact before.proposed delivers
      | doPropose body | doEmptyPropose body =>
          refine ⟨other, member, ?_⟩
          rw [Function.update_self, sends.proposedWires]
          exact List.mem_append_left _ new
      | _ => cases new
    · rw [Function.update_of_ne same] at held
      exact before.proposed (genuine.blocks other p wireBlock held)
  case proposals =>
    intro wireBlock proposed
    rcases splits wireBlock proposed with old | ⟨body, rfl⟩
    · exact before.unforgedQc (genuine.proposals wireBlock old)
    · -- a minted block carries the highest certificate
      intro entry inside signed correct
      apply before.votedHashes
      rw [QuorumCertificate.objHash_ofWire] at signed ⊢
      exact genuine.signatures rid _ entry (.hqc rfl inside) signed correct
  case accepted =>
    intro wireBlock proposed source
    rcases splits wireBlock proposed with old | ⟨body, rfl⟩
    · exact genuine.accepted wireBlock old source
    · refine (HotstuffBlock.validateHotstuff_new _ source
        deployment.config).mpr ⟨rfl, ?_⟩
      rw [← sameConfig]
      exact valid.hqcVerified

end Step

end Deployment

theorem tracks_of_reachable (collisionFree : CollisionFree)
    (configured : deployment.WellConfigured)
    (reachable : deployment.honestProposerSystem.Reachable state)
    (rid : ReplicaID) :
    ∃ abstract, Tracks configured collisionFree abstract rid (state rid) := by
  obtain ⟨restricted, -⟩ :=
    honestlyMinted_of_reachable collisionFree configured reachable
  obtain ⟨abstract, -, refines⟩ := refines_of_reachable configured
    collisionFree (Finset.Subset.refl _) restricted
  exact ⟨abstract, refines rid⟩

theorem genuine_of_reachable (collisionFree : CollisionFree)
    (configured : deployment.WellConfigured)
    (reachable : deployment.honestProposerSystem.Reachable state) :
    deployment.Genuine state := by
  refine reachable.invariant deployment.Genuine ?_ ?_
  · rintro start rfl
    exact .start deployment
  · rintro state ⟨rid, event⟩ reached genuine allowed
    obtain ⟨abstract, tracks⟩ :=
      tracks_of_reachable collisionFree configured reached rid
    exact genuine.step tracks.valid (tracks.core_configured allowed.1)
      tracks.sameConfig tracks.sameId allowed

end Provenance

end Hotstuff
