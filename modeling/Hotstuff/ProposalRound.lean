import Hotstuff.ProcessedMessages

/-!
# A round of votes

A correct replica whose leaf is as high as any block proposes one more, with a
certificate that is as high as that of any correct replica.  When the correct
replicas have come to rest, and no old message has got in between, they have all
voted for the block: it is higher than all that they have voted for, and their
locks are below its certificate.  The votes have reached the proposer, so the
block has the highest certificate there and is still the leaf.
-/

namespace Hotstuff

section Round

variable [WireTypes] [Externals]

namespace Deployment

variable {deployment : Deployment}

/-- The replicas that are not faulty. -/
def correct (deployment : Deployment) : Finset ReplicaID :=
  deployment.config.ids \ deployment.faulty

omit [Externals] in
theorem correct_subset : deployment.correct ⊆ deployment.config.ids :=
  Finset.sdiff_subset

omit [Externals] in
theorem not_faulty {rid : ReplicaID} (member : rid ∈ deployment.correct) :
    rid ∉ deployment.faulty :=
  (Finset.mem_sdiff.mp member).2

/-- The correct replicas are a quorum. -/
theorem WellConfigured.nmajority_le (configured : deployment.WellConfigured) :
    deployment.config.nmajority ≤ deployment.correct.card := by
  obtain ⟨infos, built⟩ := configured.finished
  obtain ⟨-, -, -, card, majority⟩ := ReplicaConfig.build_spec built
  have few := configured.fewFaulty
  have rest := Finset.le_card_sdiff deployment.faulty deployment.config.ids
  change _ ≤ deployment.correct.card at rest
  omega

end Deployment

namespace NetworkEventQueue

variable {start network after : NetworkEventQueue}

omit [Externals] in
theorem TakesNew.earlier (takesNew : start.TakesNew after)
    (precedes : network.Precedes after) : start.TakesNew network :=
  fun entry inside =>
    takesNew entry ((precedes.processed.drop start.taken).subset inside)

theorem TakesNew.entry (precedes : start.Precedes network)
    {entry : NetEvent × HotstuffEvent}
    (found : network.hotstuffEventQueue[network.taken]? = some entry)
    (takesNew : start.TakesNew (network.next .hotstuffEvent)) :
    start.received.length ≤ entry.1.arrival := by
  obtain ⟨inside, -⟩ := List.getElem?_eq_some_iff.mp found
  apply takesNew entry
  rw [next_hotstuffEvent found, processed, List.take_add_one, found,
    List.drop_append_of_le_length]
  · exact List.mem_append_right _ (List.mem_singleton_self _)
  · rw [List.length_take_of_le inside.le]
    exact precedes.taken

end NetworkEventQueue

/-- The effect with which a vote was sent. -/
theorem HotstuffCore.Anchored.sent_of_voted {core : HotstuffCore}
    (anchored : core.Anchored) {hash : Hash}
    (voted : hash ∈ core.votedHashes) :
    ∃ p cert target, .doVote p cert target ∈ core.trace ∧
      cert.hash = hash ∧ core.store.Placed p ∧ core.store.hash p = hash := by
  obtain ⟨effect, sent, votes⟩ := List.mem_filterMap.mp voted
  cases effect with
  | doVote p cert target =>
      obtain ⟨placed, certEq⟩ := anchored.votedPlaced p cert target sent
      have isHash : cert.hash = hash := Option.some.inj votes
      refine ⟨p, cert, target, sent, isHash, placed, ?_⟩
      rw [← isHash, certEq]
      rfl
  | _ => cases votes

/-! ### Settlements keep what there is -/

namespace Deployment

variable {deployment : Deployment} {cluster last : Cluster}
  {replicas : Finset ReplicaID} (collisionFree : CollisionFree)
  (configured : deployment.WellConfigured)
  (reachable : (deployment.cluster.restrict Cluster.Keeping).Reachable cluster)
  (leads : (deployment.cluster.restrict (Cluster.Settling replicas)).Leads
    cluster last)

include collisionFree configured reachable leads

theorem sound_of_settling : last.Sound deployment :=
  Cluster.sound_of_reachable collisionFree configured
    (reachable_of_settling reachable leads).of_restrict

theorem takesNew_of_next {rid : ReplicaID} {label : Cluster.Label}
    (enabled : deployment.cluster.enabled last label)
    (takesNew : (cluster rid).network.TakesNew (last.next label rid).network) :
    (cluster rid).network.TakesNew (last rid).network := by
  have sound := sound_of_settling collisionFree configured reachable leads
  refine takesNew.earlier ?_
  rcases Cluster.network_next collisionFree configured sound enabled.2 rid
    with same | ⟨action, -, -, result⟩
  · rw [same]
    exact .refl _
  · rw [result]
    exact (sound.processes rid).attended.precedes_next action

theorem later_of_settling (rid : ReplicaID) :
    HotstuffCore.Later (cluster.cores rid) (last.cores rid) := by
  refine settling_invariant leads (fun last =>
    HotstuffCore.Later (cluster.cores rid) (last.cores rid)) (.refl _) ?_
  intro last label leads later enabled _
  exact later.trans (Cluster.later_next collisionFree configured
    (sound_of_settling collisionFree configured reachable leads) enabled.2 rid)

/-- Nothing is broadcast in a settlement. -/
theorem broadcasts_of_settling {rid : ReplicaID} {p : BlockPtr}
    {wireBlock : HotstuffBlockWire}
    (sent : .broadcastProposal p wireBlock ∈ (last.cores rid).trace) :
    .broadcastProposal p wireBlock ∈ (cluster.cores rid).trace := by
  revert sent
  refine settling_invariant leads (fun last =>
    .broadcastProposal p wireBlock ∈ (last.cores rid).trace →
      .broadcastProposal p wireBlock ∈ (cluster.cores rid).trace) id ?_
  intro last label leads before enabled settling sent
  have sound := sound_of_settling collisionFree configured reachable leads
  rcases Cluster.core_next collisionFree configured sound enabled.2 settling.1
    rid with same | ⟨event, -, unminted, stepEq⟩
  · exact before (same ▸ sent)
  · rw [stepEq] at sent
    rcases (sound.anchored collisionFree configured rid).sent_step sent rfl with
      old | new
    · exact before old
    cases event with
    | doPropose | doEmptyPropose => cases unminted
    | proposal q proposer =>
        rw [HotstuffCore.newlySent] at new
        split at new
        · cases List.mem_singleton.mp new
        · cases new
    | _ => cases new

end Deployment

namespace Deployment

variable {deployment : Deployment} {cluster last : Cluster}
  {replicas : Finset ReplicaID} {rid : ReplicaID}
  (collisionFree : CollisionFree) (configured : deployment.WellConfigured)
  (reachable : (deployment.cluster.restrict Cluster.Keeping).Reachable cluster)
  (settlement : deployment.Settlement replicas cluster last)
  (inside : replicas ⊆ deployment.config.ids)

include collisionFree configured reachable settlement inside

/-- What has arrived in a settlement is done at its end. -/
theorem done_of_settlement (honest : ∀ rid ∈ replicas, rid ∉ deployment.faulty)
    (member : rid ∈ replicas) {event : NetEvent}
    (arrived : event ∈ (last rid).network.received)
    (new : cluster.arrived rid ≤ event.arrival)
    (isMessage : event.isMessage = true) :
    ∃ delivered : HotstuffEvent,
      delivered.Delivers (last.cores rid).store event ∧
        (last.cores rid).Done configured collisionFree delivered.toCore := by
  obtain ⟨leads, atRest⟩ := settlement
  have reached := reachable_of_settling reachable leads
  have sound := sound_of_settling collisionFree configured reachable leads
  have fresh := fresh_of_settling collisionFree configured reachable leads
  have serviced := Cluster.serviced_of_reachable collisionFree configured reached
  obtain ⟨entry, processed, rfl⟩ := fresh.processed_at_rest collisionFree
    configured inside honest sound serviced atRest member arrived new isMessage
  have heeded := Cluster.heeded_of_reachable collisionFree configured
    reached.of_restrict
  exact ⟨entry.2, (sound.processes rid).attended.delivers entry
    (List.mem_of_mem_take processed), heeded.entries rid entry processed⟩

/-- So is what a replica has sent itself. -/
theorem own_done_of_settlement (member : rid ∈ replicas)
    {event : HotstuffCore.Event} (own : event ∈ (last rid).selfClient) :
    (last.cores rid).Done configured collisionFree event := by
  obtain ⟨leads, atRest⟩ := settlement
  have reached := reachable_of_settling reachable leads
  have sound := sound_of_settling collisionFree configured reachable leads
  obtain ⟨abstract, tracks⟩ :=
    tracks_of_reachable collisionFree configured sound.cores rid
  obtain ⟨-, -, taken⟩ :=
    Cluster.queue_at_rest inside sound atRest member tracks.alive
  have heeded := Cluster.heeded_of_reachable collisionFree configured
    reached.of_restrict
  apply heeded.own rid event
  rwa [Cluster.ownProcessed, List.take_of_length_le taken]

end Deployment

/-! ### After the proposal -/

/-- The leader has just proposed the block, the only one of its height. -/
structure Opened (deployment : Deployment) (collisionFree : CollisionFree)
    (cluster : Cluster) (leader : ReplicaID) (leaf : BlockPtr)
    (wireBlock : HotstuffBlockWire) (bound : Nat) : Prop where
  reachable : (deployment.cluster.restrict Cluster.Keeping).Reachable cluster
  member : leader ∈ deployment.correct
  sent : .broadcastProposal leaf wireBlock ∈ (cluster.cores leader).trace
  stored : (cluster.cores leader).store.Stored leaf
  isLeaf : (cluster.cores leader).bLeaf = leaf
  height : (headerForest collisionFree).height
    (hashHeader wireBlock.header) = bound + 1
  only : ∀ rid ∈ deployment.config.ids,
    ∀ other ∈ (cluster.cores rid).proposedWires,
      (headerForest collisionFree).height (hashHeader other.header) ≤ bound ∨
        rid = leader ∧ other = wireBlock
  pointer : ∀ p < (cluster.cores leader).store.heap.length,
    (cluster.cores leader).store.hash p = hashHeader wireBlock.header →
      p = leaf
  unseen : ∀ rid ≠ leader, (cluster.cores rid).store.Below bound
  unreceived : ∀ rid, ∀ event ∈ (cluster rid).network.received,
    ∀ p source, event.Brings p source →
      (headerForest collisionFree).height
        ((cluster.cores rid).store.hash p) ≤ bound
  justify : (headerForest collisionFree).height
      wireBlock.header.qc.justify =
    (cluster.cores leader).store.height (cluster.cores leader).hqc.1
  certified : ∀ rid ∈ deployment.correct,
    (cluster.cores rid).store.height (cluster.cores rid).hqc.1 ≤
      (cluster.cores leader).store.height (cluster.cores leader).hqc.1

namespace Opened

variable {deployment : Deployment} {collisionFree : CollisionFree}
  {cluster last : Cluster}
  {leader rid : ReplicaID} {leaf : BlockPtr} {wireBlock : HotstuffBlockWire}
  {bound : Nat}
  (opened : Opened deployment collisionFree cluster leader leaf wireBlock bound)

include opened

theorem leaf_placed (configured : deployment.WellConfigured) :
    ((cluster.cores leader).block leaf).Linked ∧
      (cluster.cores leader).store.hash leaf = hashHeader wireBlock.header := by
  have sound := Cluster.sound_of_reachable collisionFree configured
    opened.reachable.of_restrict
  have tree := (sound.anchored collisionFree configured leader).tree
  obtain ⟨linked, header⟩ := ((genuine_of_reachable collisionFree configured
    sound.cores).issued leader).proposals leaf wireBlock opened.sent
  refine ⟨linked, ?_⟩
  rw [← header]
  exact (tree.hashed leaf (tree.ne_zero_of_linked linked)
    (BlockStore.WellFormed.lt_of_linked linked)).1

/-- No other replica has voted for the block. -/
theorem unvoted (configured : deployment.WellConfigured)
    (other : rid ≠ leader) :
    hashHeader wireBlock.header ∉ (cluster.cores rid).votedHashes := by
  intro voted
  have anchored := (Cluster.sound_of_reachable collisionFree configured
    opened.reachable.of_restrict).anchored collisionFree configured rid
  obtain ⟨p, -, -, -, -, placed, hashEq⟩ := anchored.sent_of_voted voted
  have height := anchored.tree.height_eq collisionFree placed
  rw [hashEq, opened.height] at height
  have low := opened.unseen rid other p
  omega

section Settling

variable (configured : deployment.WellConfigured)
  (leads : (deployment.cluster.restrict
    (Cluster.Settling deployment.correct)).Leads cluster last)

include configured leads

/-- The proposer of a block at the new height is the leader. -/
theorem minted {header : HotstuffBlockHeader} {proposer : ReplicaID}
    (member : proposer ∈ deployment.config.ids)
    (minted : (last.cores proposer).MintedHeader header) :
    (headerForest collisionFree).height (hashHeader header) ≤ bound ∨
      proposer = leader ∧ header = wireBlock.header := by
  obtain ⟨other, proposed, rfl⟩ := minted
  rw [Deployment.proposedWires_of_settling opened.reachable leads collisionFree
    configured] at proposed
  refine (opened.only proposer member other proposed).imp_right ?_
  rintro ⟨rfl, rfl⟩
  exact ⟨rfl, rfl⟩

theorem below :
    deployment.ProposedBelow collisionFree last.cores (bound + 1) := by
  rintro other ⟨rid, member, proposed⟩
  rcases opened.minted configured leads member ⟨_, proposed, rfl⟩ with
    low | ⟨-, header⟩
  · exact low.trans (Nat.le_succ bound)
  · rw [header, opened.height]

/-- Above the bound there is no other block. -/
theorem hash_of_high {p : BlockPtr}
    (high : bound < (last.cores rid).store.height p) :
    (last.cores rid).store.hash p = hashHeader wireBlock.header := by
  have sound := Deployment.sound_of_settling collisionFree configured
    opened.reachable leads
  have tree := (sound.anchored collisionFree configured rid).tree
  have linked := tree.linked_of_height_pos (Nat.zero_lt_of_lt high)
  have notGenesis := tree.ne_zero_of_linked linked
  have inside := BlockStore.WellFormed.lt_of_linked linked
  obtain ⟨other, ⟨proposer, member, proposed⟩, header⟩ :=
    deployment.header_proposed collisionFree configured sound.cores rid
      notGenesis inside
  have hashEq : (last.cores rid).store.hash p = hashHeader other.header := by
    rw [← header]
    exact (tree.hashed p notGenesis inside).1
  rcases opened.minted configured leads member ⟨other, proposed, rfl⟩ with
    low | ⟨-, same⟩
  · rw [← hashEq, tree.height_eq collisionFree (.inr linked)] at low
    omega
  · rw [hashEq, same]

/-- The locks stay below the certificate of the block, unless an old message is
processed. -/
theorem lockBelow (member : rid ∈ deployment.correct)
    (takesNew : (cluster rid).network.TakesNew (last rid).network) :
    (last.cores rid).LockBelow ((cluster.cores leader).store.height
      (cluster.cores leader).hqc.1) := by
  revert takesNew
  refine Deployment.settling_invariant leads (fun last =>
    (cluster rid).network.TakesNew (last rid).network →
      (last.cores rid).LockBelow ((cluster.cores leader).store.height
        (cluster.cores leader).hqc.1)) ?_ ?_
  · intro _
    have sound := Cluster.sound_of_reachable collisionFree configured
      opened.reachable.of_restrict
    exact (deployment.lockBelow_of_reachable collisionFree configured
      sound.cores rid).mono (opened.certified rid member)
  intro last label leads below enabled settling takesNew
  have sound := Deployment.sound_of_settling collisionFree configured
    opened.reachable leads
  have below := below (Deployment.takesNew_of_next collisionFree configured
    opened.reachable leads enabled takesNew)
  rcases Cluster.core_cases collisionFree configured sound enabled.2 rid with
    same | ⟨action, event, cause, -, result, ready, stepEq, hands⟩
  · rw [same]
    exact below
  have anchored := sound.anchored collisionFree configured rid
  rw [stepEq]
  rw [result] at takesNew
  refine below.step anchored ready (deployment.lockMoves_of_enabled collisionFree
    configured sound.cores (Deployment.correct_subset member) ready) ?_
  rintro p proposer justify rfl names -
  -- the proposer is correct, so its certificate is not too high
  have proposerMember : proposer ∈ deployment.correct := by
    rcases hands with isOwn | ⟨rfl, event, arrived, found, isProposal, -⟩
    · have own := cause.mem_selfClient settling.1 isOwn
      rw [(sound.sent_of_selfProposal own).1]
      exact member
    · have new := NetworkEventQueue.TakesNew.entry
        (Deployment.precedes_of_settling collisionFree configured
          opened.reachable leads rid) found takesNew
      have source := ((Deployment.fresh_of_settling collisionFree configured
        opened.reachable leads).sources rid member event arrived new).1
      rwa [NetEvent.source, isProposal] at source
  have attributed := Cluster.attributed_of_reachable collisionFree configured
    (Deployment.reachable_of_settling opened.reachable leads).of_restrict
  obtain ⟨other, proposed, headerEq⟩ :=
    attributed.handed collisionFree configured sound cause hands
  rw [Deployment.proposedWires_of_settling opened.reachable leads collisionFree
    configured] at proposed
  have held := deployment.certificatesHeld_of_reachable collisionFree configured
    (Cluster.sound_of_reachable collisionFree configured
      opened.reachable.of_restrict).cores proposer other proposed
  rw [headerEq] at held
  rw [← anchored.tree.height_justify collisionFree names]
  exact held.trans (opened.certified proposer proposerMember)

/-- The block arrives after it was proposed. -/
theorem new_of_brings {event : NetEvent}
    (arrived : event ∈ (last rid).network.received) {p : BlockPtr}
    {source : ReplicaID} (brings : event.Brings p source)
    (isBlock : (last.cores rid).store.hash p = hashHeader wireBlock.header) :
    cluster.arrived rid ≤ event.arrival := by
  have sound := Deployment.sound_of_settling collisionFree configured
    opened.reachable leads
  refine ((Deployment.precedes_of_settling collisionFree configured
    opened.reachable leads rid).old_or_new (sound.processes rid).attended
      arrived).resolve_left ?_
  intro old
  have start := Cluster.sound_of_reachable collisionFree configured
    opened.reachable.of_restrict
  have known := (NetworkEventQueue.NetEvent.Brings.known brings
    ((start.processes rid).attended.known event old)).2
  have low := opened.unreceived rid event old p source brings
  have same := ((Deployment.later_of_settling collisionFree configured
    opened.reachable leads rid).longer.identity p known).1
  rw [← same, isBlock, opened.height] at low
  exact Nat.not_succ_le_self bound low

/-- The leader gets no copy of the block: a processed proposal with its hash is
the own one. -/
theorem handed_leaf {label : Cluster.Label}
    (settling : last.Settling deployment.correct label)
    {action : NetworkEventQueue.Action}
    (cause : Cluster.Cause deployment last leader label action) {p : BlockPtr}
    {proposer : ReplicaID}
    (hands : (last leader).network.Hands action (.proposal p proposer))
    (linked : ((last.cores leader).block p).Linked)
    (isBlock : (last.cores leader).store.hash p = hashHeader wireBlock.header) :
    p = leaf := by
  have start := Cluster.sound_of_reachable collisionFree configured
    opened.reachable.of_restrict
  have sound := Deployment.sound_of_settling collisionFree configured
    opened.reachable leads
  have longer := (Deployment.later_of_settling collisionFree configured
    opened.reachable leads leader).longer
  rcases hands with isOwn | ⟨-, event, arrived, -, isProposal, -⟩
  · have own := cause.mem_selfClient settling.1 isOwn
    obtain ⟨-, other, sent⟩ := sound.sent_of_selfProposal own
    have before := Deployment.broadcasts_of_settling collisionFree configured
      opened.reachable leads sent
    have inside := BlockStore.WellFormed.lt_of_linked
      (((genuine_of_reachable collisionFree configured
        start.cores).issued leader).proposals p other before).1
    exact opened.pointer p inside ((longer.identity p inside).1.symm.trans isBlock)
  exfalso
  have new := opened.new_of_brings configured leads arrived (.inl isProposal)
    isBlock
  have source := (Deployment.fresh_of_settling collisionFree configured
    opened.reachable leads).sources leader opened.member event arrived new
  have isMessage : event.isMessage = true := by
    rw [NetEvent.isMessage, isProposal]
  rw [NetEvent.source, isProposal] at source
  have attributed := Cluster.attributed_of_reachable collisionFree configured
    (Deployment.reachable_of_settling opened.reachable leads).of_restrict
  have tree := (sound.anchored collisionFree configured leader).tree
  have top := opened.height
  rw [← isBlock, (tree.hashed p (tree.ne_zero_of_linked linked)
    (BlockStore.WellFormed.lt_of_linked linked)).1] at top
  rcases opened.minted configured leads (Deployment.correct_subset source.1)
    (attributed.proposals leader event arrived p proposer isProposal) with
    low | ⟨same, -⟩
  · exact Nat.not_succ_le_self bound (top.ge.trans low)
  · exact source.2 isMessage same

/-- The votes of the leader on the block are on the leaf. -/
theorem voted_leaf {p : BlockPtr} {cert : PartialCertificate}
    {target : ReplicaID}
    (voted : .doVote p cert target ∈ (last.cores leader).trace)
    (isBlock : (last.cores leader).store.hash p = hashHeader wireBlock.header) :
    p = leaf := by
  revert p cert target
  refine Deployment.settling_invariant leads (fun last =>
    ∀ {p : BlockPtr} {cert : PartialCertificate} {target : ReplicaID},
      .doVote p cert target ∈ (last.cores leader).trace →
      (last.cores leader).store.hash p = hashHeader wireBlock.header →
        p = leaf) ?_ ?_
  · intro p cert target voted isBlock
    have anchored := (Cluster.sound_of_reachable collisionFree configured
      opened.reachable.of_restrict).anchored collisionFree configured leader
    exact opened.pointer p (anchored.tree.lt_of_placed
      (anchored.votedPlaced p cert target voted).1) isBlock
  intro last label leads before enabled settling p cert target voted isBlock
  have sound := Deployment.sound_of_settling collisionFree configured
    opened.reachable leads
  have anchored := sound.anchored collisionFree configured leader
  rcases Cluster.core_cases collisionFree configured sound enabled.2 leader with
    same | ⟨action, event, cause, -, -, ready, stepEq, hands⟩
  · rw [same] at voted isBlock
    exact before voted isBlock
  have longer := (HotstuffCore.grows_step anchored.tree ready).2
  rw [stepEq] at voted isBlock
  rcases anchored.sent_step voted rfl with old | new
  · rw [longer.hash (anchored.votedPlaced p cert target old).1] at isBlock
    exact before old isBlock
  cases event with
  | proposal q proposer =>
      rw [HotstuffCore.newlySent] at new
      split at new
      · obtain ⟨rfl, -, rfl⟩ := Effect.doVote.inj (List.mem_singleton.mp new)
        have linked := anchored.tree.linked_of_height_pos
          (Nat.pos_of_ne_zero ready.2.1)
        rw [longer.hash (.inr linked)] at isBlock
        exact opened.handed_leaf configured leads settling cause hands linked
          isBlock
      · cases new
  | doPropose | doEmptyPropose => cases List.mem_singleton.mp new
  | _ => cases new

/-- Votes for the block are sent to the leader. -/
theorem target_leader {p : BlockPtr} {cert : PartialCertificate}
    {target : ReplicaID}
    (sent : .doVote p cert target ∈ (last.cores rid).trace)
    (placed : (last.cores rid).store.Placed p)
    (isBlock : (last.cores rid).store.hash p = hashHeader wireBlock.header) :
    target = leader := by
  have sound := Deployment.sound_of_settling collisionFree configured
    opened.reachable leads
  obtain ⟨abstract, tracks⟩ :=
    tracks_of_reachable collisionFree configured sound.cores rid
  have tree := tracks.valid.tree
  have targetMember : target ∈ deployment.config.ids := by
    have isValid := ((genuine_of_reachable collisionFree configured
      sound.cores).issued rid).votes p cert target sent
    rw [tracks.sameConfig] at isValid
    exact ReplicaConfig.isValidReplica_iff.mp isValid
  have attributed := Cluster.attributed_of_reachable collisionFree configured
    (Deployment.reachable_of_settling opened.reachable leads).of_restrict
  have top := opened.height
  have height := tree.height_eq collisionFree placed
  rw [isBlock, top] at height
  have linked := tree.linked_of_height_pos
    (Nat.lt_of_lt_of_eq (Nat.succ_pos bound) height)
  rw [← isBlock, (tree.hashed p (tree.ne_zero_of_linked linked)
    (BlockStore.WellFormed.lt_of_linked linked)).1] at top
  rcases opened.minted configured leads targetMember
    (attributed.votes rid p cert target sent) with low | ⟨same, -⟩
  · exact (Nat.not_succ_le_self bound (top.ge.trans low)).elim
  · exact same

/-- The leaf stays the first block with its hash. -/
theorem leaf_stored :
    (last.cores leader).store.Stored leaf ∧
      (last.cores leader).store.Placed leaf ∧
      (last.cores leader).store.hash leaf = hashHeader wireBlock.header := by
  have longer := (Deployment.later_of_settling collisionFree configured
    opened.reachable leads leader).longer
  obtain ⟨linked, hashEq⟩ := opened.leaf_placed configured
  exact ⟨longer.stored (.inr linked) opened.stored,
    longer.placed (.inr linked), (longer.hash (.inr linked)).trans hashEq⟩

/-- A certificate for the block is one for the leaf. -/
theorem hqc_leaf (isBlock : (last.cores leader).store.hash
      (last.cores leader).hqc.1 = hashHeader wireBlock.header) :
    (last.cores leader).hqc.1 = leaf := by
  revert isBlock
  refine Deployment.settling_invariant leads (fun last =>
    (last.cores leader).store.hash (last.cores leader).hqc.1 =
        hashHeader wireBlock.header → (last.cores leader).hqc.1 = leaf) ?_ ?_
  · intro isBlock
    have anchored := (Cluster.sound_of_reachable collisionFree configured
      opened.reachable.of_restrict).anchored collisionFree configured leader
    exact opened.pointer _ (anchored.tree.lt_of_placed anchored.hqcPlaced)
      isBlock
  intro last label leads before enabled settling isBlock
  have sound := Deployment.sound_of_settling collisionFree configured
    opened.reachable leads
  obtain ⟨abstract, tracks⟩ :=
    tracks_of_reachable collisionFree configured sound.cores leader
  have anchored := tracks.valid.anchored
  rcases Cluster.core_cases collisionFree configured sound enabled.2 leader with
    same | ⟨action, event, cause, -, -, ready, stepEq, hands⟩
  · rw [same] at isBlock ⊢
    exact before isBlock
  have rises := (HotstuffCore.leafMoves_step anchored.tree event).hqcRises
    anchored
  rw [stepEq] at isBlock ⊢
  rw [(HotstuffCore.grows_step anchored.tree ready).2.hash rises.placed]
    at isBlock
  rcases anchored.hqc_step (tracks.core_configured
    (Deployment.correct_subset opened.member)) ready with
    same | stored | isSelf
  · rw [same] at isBlock ⊢
    exact before isBlock
  · obtain ⟨leafStored, -, leafHash⟩ := opened.leaf_stored configured leads
    exact BlockStore.WellFormed.stored_unique stored leafStored
      (isBlock.trans leafHash.symm)
  · rw [isSelf] at ready
    obtain ⟨effect, sent, isVote⟩ := List.any_eq_true.mp ready.2
    cases effect with
    | doVote p cert target =>
        simp only [Bool.and_eq_true, beq_iff_eq] at isVote
        obtain ⟨rfl, -⟩ := isVote
        exact opened.voted_leaf configured leads sent isBlock
    | _ => cases isVote

/-- The leaf moves to a certified block only. -/
theorem leaf_cases :
    (last.cores leader).bLeaf = (last.cores leader).hqc.1 ∨
      (last.cores leader).bLeaf = leaf := by
  refine Deployment.settling_invariant leads (fun last =>
    (last.cores leader).bLeaf = (last.cores leader).hqc.1 ∨
      (last.cores leader).bLeaf = leaf) (.inr opened.isLeaf) ?_
  intro last label leads before enabled settling
  have sound := Deployment.sound_of_settling collisionFree configured
    opened.reachable leads
  rcases Cluster.core_next collisionFree configured sound enabled.2 settling.1
    leader with same | ⟨event, -, unminted, stepEq⟩
  · rw [same]
    exact before
  rw [stepEq]
  cases HotstuffCore.leafMoves_step
    (sound.anchored collisionFree configured leader).tree event with
  | stays leaf hqc =>
      rw [leaf, hqc]
      exact before
  | certified _ _ leaf hqc => exact .inl (leaf.trans hqc.symm)
  | mints _ body proposes =>
      rcases proposes with rfl | rfl <;> cases unminted

end Settling

/-! ### At the end of the round -/

section Rest

variable (configured : deployment.WellConfigured)
  (settlement : deployment.Settlement deployment.correct cluster last)

include configured settlement

/-- All correct replicas have processed the block. -/
theorem processed (member : rid ∈ deployment.correct) :
    ∃ p proposer, (last.cores rid).store.hash p = hashHeader wireBlock.header ∧
      (last.cores rid).Done configured collisionFree (.proposal p proposer) := by
  obtain ⟨leads, atRest⟩ := settlement
  have reached := Deployment.reachable_of_settling opened.reachable leads
  have sound := Deployment.sound_of_settling collisionFree configured
    opened.reachable leads
  have sent : .broadcastProposal leaf wireBlock ∈ (last.cores leader).trace :=
    (Deployment.later_of_settling collisionFree configured opened.reachable leads
      leader).trace.subset opened.sent
  by_cases isLeader : rid = leader
  · subst isLeader
    refine ⟨leaf, rid, (opened.leaf_stored configured leads).2.2,
      Deployment.own_done_of_settlement collisionFree configured
        opened.reachable ⟨leads, atRest⟩ Deployment.correct_subset member ?_⟩
    rw [(sound.processes rid).selfClient]
    exact List.mem_filterMap.mpr ⟨_, List.mem_reverse.mpr sent, rfl⟩
  obtain ⟨event, arrived, p, isProposal, header⟩ := Cluster.got_at_rest
    Deployment.correct_subset sound atRest opened.member
    (Cluster.serviced_of_reachable collisionFree configured reached) member
    isLeader sent rfl
  have attended := (sound.processes rid).attended
  obtain ⟨notGenesis, known⟩ := NetworkEventQueue.NetEvent.Brings.known
    (.inl isProposal) (attended.known event arrived)
  have isBlock : (last.cores rid).store.hash p =
      hashHeader wireBlock.header := by
    rw [← header]
    exact (attended.tree.hashed p notGenesis known).1
  obtain ⟨delivered, delivers, done⟩ := Deployment.done_of_settlement
    collisionFree configured opened.reachable ⟨leads, atRest⟩
    Deployment.correct_subset (fun _ => Deployment.not_faulty) member arrived
    (opened.new_of_brings configured leads arrived (.inl isProposal) isBlock)
    (by rw [NetEvent.isMessage, isProposal])
  cases delivered with
  | vote => cases isProposal.symm.trans delivers.1
  | proposal q proposer =>
      obtain ⟨rfl, rfl⟩ := NetEventVariant.proposal.inj
        (isProposal.symm.trans delivers.1)
      exact ⟨p, leader, isBlock, done⟩

/-- They have voted for it. -/
theorem voted (member : rid ∈ deployment.correct)
    (takesNew : (cluster rid).network.TakesNew (last rid).network) :
    hashHeader wireBlock.header ∈ (last.cores rid).votedHashes := by
  obtain ⟨p, proposer, isBlock, placed, considered, -⟩ :=
    opened.processed configured settlement member
  have leads := settlement.1
  have sound := Deployment.sound_of_settling collisionFree configured
    opened.reachable leads
  have tree := (sound.anchored collisionFree configured rid).tree
  have height := tree.height_eq collisionFree placed
  rw [isBlock, opened.height] at height
  rcases considered with voted | passed | ⟨locked, justify, names, high⟩
  · rwa [isBlock] at voted
  · rcases deployment.voteHeightReached_of_reachable collisionFree configured
      sound.cores rid with zero | ⟨q, -, voted, voteHeight⟩
    · omega
    · rwa [opened.hash_of_high configured leads (by omega)] at voted
  · exfalso
    have below := (opened.lockBelow configured leads member
      takesNew).resolve_left locked
    have justifies := tree.justify_edge collisionFree names
    rw [isBlock, headerJustify_hashHeader collisionFree] at justifies
    have level := opened.justify
    rw [Option.some.inj justifies, tree.height_eq collisionFree
      (tree.justify_stored names).2.1] at level
    omega

/-- The leader has counted their votes. -/
theorem signs (member : rid ∈ deployment.correct)
    (takesNew : (cluster rid).network.TakesNew (last rid).network) :
    rid ∈ (last.cores leader).signers leaf := by
  have hasVoted := opened.voted configured settlement member takesNew
  obtain ⟨leads, atRest⟩ := settlement
  have reached := Deployment.reachable_of_settling opened.reachable leads
  have sound := Deployment.sound_of_settling collisionFree configured
    opened.reachable leads
  have anchored := sound.anchored collisionFree configured rid
  obtain ⟨p, cert, target, sent, isBlock, placed, hashEq⟩ :=
    anchored.sent_of_voted hasVoted
  obtain rfl := opened.target_leader configured leads sent placed hashEq
  by_cases isLeader : rid = target
  · subst isLeader
    have own : .selfVote p ∈ (last rid).selfClient := by
      rw [(sound.processes rid).selfClient]
      exact List.mem_filterMap.mpr
        ⟨_, List.mem_reverse.mpr sent, if_pos rfl⟩
    have counted := (Deployment.own_done_of_settlement collisionFree configured
      opened.reachable ⟨leads, atRest⟩ Deployment.correct_subset member own).2
    rw [sound.sameId collisionFree configured rid,
      opened.voted_leaf configured leads sent hashEq] at counted
    exact counted
  obtain ⟨event, arrived, isVote⟩ := Cluster.got_at_rest
    Deployment.correct_subset sound atRest member
    (Cluster.serviced_of_reachable collisionFree configured reached)
    opened.member (Ne.symm isLeader) sent (if_pos rfl)
  have new : cluster.arrived target ≤ event.arrival := by
    refine ((Deployment.precedes_of_settling collisionFree configured
      opened.reachable leads target).old_or_new
        (sound.processes target).attended arrived).resolve_left ?_
    intro old
    have authentic := ((Cluster.sound_of_reachable collisionFree configured
      opened.reachable.of_restrict).processes target).votes event old cert rid
        isVote (Deployment.not_faulty member)
    rw [isBlock] at authentic
    exact opened.unvoted configured isLeader authentic
  obtain ⟨delivered, delivers, done⟩ := Deployment.done_of_settlement
    collisionFree configured opened.reachable ⟨leads, atRest⟩
    Deployment.correct_subset (fun _ => Deployment.not_faulty) opened.member
    arrived new (by rw [NetEvent.isMessage, isVote])
  cases delivered with
  | proposal => cases isVote.symm.trans delivers.1
  | vote cert q voter =>
      obtain ⟨rfl, rfl⟩ := NetEventVariant.vote.inj
        (isVote.symm.trans delivers.1)
      obtain ⟨stored, -, leafHash⟩ := opened.leaf_stored configured leads
      rw [BlockStore.Stored, leafHash, ← isBlock] at stored
      obtain rfl := Option.some.inj (stored.symm.trans delivers.2)
      exact done.2

/-- So the block has a quorum, and the leader builds on it. -/
theorem certified_at_rest (takesNew : ∀ rid ∈ deployment.correct,
      (cluster rid).network.TakesNew (last rid).network) :
    (last.cores leader).hqc.1 = leaf ∧ (last.cores leader).bLeaf = leaf := by
  have leads := settlement.1
  have sound := Deployment.sound_of_settling collisionFree configured
    opened.reachable leads
  obtain ⟨abstract, tracks⟩ :=
    tracks_of_reachable collisionFree configured sound.cores leader
  obtain ⟨-, placed, hashEq⟩ := opened.leaf_stored configured leads
  have quorum : ((last.cores leader).block leaf).selfQc.hasQuorum
      (last.cores leader).config = true := by
    have all : deployment.correct ⊆ (last.cores leader).signers leaf :=
      fun rid member => opened.signs configured settlement member
        (takesNew rid member)
    refine decide_eq_true ?_
    rw [tracks.sameConfig, ← OrderedMap.card_keys]
    exact configured.nmajority_le.trans (Finset.card_le_card all)
  have noticed := (deployment.quorumsNoticed_of_reachable collisionFree
    configured sound.cores leader leaf quorum).2
  have height := tracks.valid.tree.height_eq collisionFree placed
  rw [hashEq, opened.height] at height
  have isBlock := opened.hash_of_high configured leads
    (Nat.lt_of_lt_of_le (Nat.lt_of_lt_of_eq (Nat.lt_succ_self bound) height)
      noticed)
  have isLeaf := opened.hqc_leaf configured leads isBlock
  refine ⟨isLeaf, ?_⟩
  rcases opened.leaf_cases configured leads with isHqc | same
  · exact isHqc.trans isLeaf
  · exact same

end Rest

end Opened

end Round

end Hotstuff
