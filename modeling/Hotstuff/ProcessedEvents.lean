import Hotstuff.VoteCounting
import Hotstuff.ProposedHeights

/-!
# What processed events leave behind

A processed vote is counted.  A processed proposal has committed the bottom of
every chain of three that it completes, and the replica has voted for the block
unless a vote or its lock stands in the way.  No later step undoes this.

The other facts of this file are about the replica as a whole: every quorum of
votes has been noticed, the vote height is that of a vote, and no proposal has a
certificate above the highest one.
-/

namespace Hotstuff

section Processed

variable [WireTypes] [Externals]

/-- A block whose parent and justify hash agree points to one block twice. -/
theorem BlockStore.WellFormed.direct_parent {store : BlockStore}
    (tree : store.WellFormed) (collisionFree : CollisionFree) {p : BlockPtr}
    {above : Hash} (placed : store.Placed p)
    (parentEq : (headerForest collisionFree).parent (store.hash p) =
      some above)
    (justifyEq : headerJustify (store.hash p) = some above) :
    ∃ parent, (store.block p).parentBlockPtr = some parent ∧
      (store.block p).justifyBlockPtr = some parent ∧
      store.hash parent = above ∧ store.Placed parent := by
  rcases placed with rfl | linked
  · rw [tree.genesis_hash] at parentEq
    exact (Option.some_ne_none _ (parentEq.symm.trans
      (headerForest collisionFree).parent_root)).elim
  obtain ⟨parent, edge, proper⟩ := tree.parent_of_linked linked
  obtain ⟨justify, names, -⟩ := proper.justifyStored
  obtain ⟨parentStored, parentPlaced, -⟩ := tree.parent_stored edge
  have parentHash : store.hash parent = above := Option.some.inj
    ((tree.parent_edge collisionFree edge).symm.trans parentEq)
  have justifyHash : store.hash justify = above := Option.some.inj
    ((tree.justify_edge collisionFree names).symm.trans justifyEq)
  obtain rfl := stored_unique parentStored (tree.justify_stored names).1
    (parentHash.trans justifyHash.symm)
  exact ⟨parent, edge, names, parentHash, parentPlaced⟩

/-- The height of the justify block, from the header. -/
theorem BlockStore.WellFormed.height_justify {store : BlockStore}
    (tree : store.WellFormed) (collisionFree : CollisionFree)
    {p justify : BlockPtr}
    (names : (store.block p).justifyBlockPtr = some justify) :
    (headerForest collisionFree).height
      (store.block p).wireBlock.header.qc.justify = store.height justify := by
  have linked := tree.linked_of_justify names
  have justifies := tree.justify_edge collisionFree names
  rw [(tree.hashed p (tree.ne_zero_of_linked linked) (lt_of_linked linked)).1,
    headerJustify_hashHeader collisionFree] at justifies
  rw [Option.some.inj justifies,
    tree.height_eq collisionFree (tree.justify_stored names).2.1]

namespace HotstuffCore

variable {core after : HotstuffCore} {collisionFree : CollisionFree}
  {event : Event}

/-! ### Votes are counted -/

/-- The vote that is counted in an event. -/
def ballot (core : HotstuffCore) : Event → Option ReceivedVote
  | .vote cert p voter => some ⟨cert, p, voter⟩
  | .selfVote p => some
      ⟨PartialCertificate.sign (core.store.hash p) core.secretKey, p,
        core.selfId⟩
  | _ => none

theorem step_ballot {vote : ReceivedVote}
    (isVote : core.ballot event = some vote) :
    core.step event = core.receiveVote vote := by
  cases event <;> cases isVote <;> rfl

theorem Anchored.goodBallot (anchored : core.Anchored)
    (configured : core.Configured) (enabled : core.Enabled event)
    {vote : ReceivedVote} (isVote : core.ballot event = some vote) :
    core.GoodVote vote.partialCert vote.certifiedBlock vote.voterid := by
  cases event <;> cases isVote
  · exact anchored.goodVote configured enabled
  · exact anchored.goodSelfVote configured enabled.2

theorem selfQc_onReceiveProposal (tree : core.store.WellFormed)
    (q : BlockPtr) (proposer : ReplicaID) (p : BlockPtr) :
    ((core.onReceiveProposal q proposer).block p).selfQc =
      (core.block p).selfQc := by
  have kept (core : HotstuffCore) :
      Keeps HotstuffBlock.selfQc core (core.update q) :=
    keeps_update (fun _ => rfl) (fun _ => rfl) core q
  rcases onReceiveProposal_cases tree q proposer with
    ⟨-, result⟩ | ⟨-, result⟩ <;> rw [result]
  · exact (kept (core.castVote q proposer)).blocks p
  · exact (kept core).blocks p

/-- The block has the votes that it had before, or it is new. -/
def VotesKept (core after : HotstuffCore) (p : BlockPtr) : Prop :=
  (after.block p).selfQc = (core.block p).selfQc ∨
    core.store.heap.length ≤ p ∧ (after.block p).selfQc.sigs.entries = []

omit [Externals] in
theorem votesKept_alloc {block : HotstuffBlock}
    (noVotes : block.selfQc.sigs.entries = []) (p : BlockPtr) :
    VotesKept core { core with store := (core.store.alloc block).1 } p := by
  rw [VotesKept, HotstuffCore.block, BlockStore.block_alloc]
  split
  · rename_i new
    exact .inr ⟨new.ge, noVotes⟩
  · exact .inl rfl

theorem votesKept_proposeBody (core : HotstuffCore) (nonemptyProposal : Bool)
    (body : Body) (p : BlockPtr) :
    VotesKept core (core.proposeBody nonemptyProposal body) p := by
  have keeps : Keeps HotstuffBlock.selfQc
      { core with store := (core.store.alloc (core.minted body)).1 }
      (core.proposeBody nonemptyProposal body) :=
    (keeps_insertBlock (fun _ _ _ _ => rfl) _ core.store.heap.length).trans
      (keeps_of_store (store_proposeBody core nonemptyProposal body))
  rw [VotesKept, keeps.blocks p]
  exact votesKept_alloc rfl p

theorem Anchored.votesKept_step (anchored : core.Anchored)
    (enabled : core.Enabled event) (noVote : core.ballot event = none)
    (p : BlockPtr) : VotesKept core (core.step event) p := by
  cases event with
  | receiveBlock => exact votesKept_alloc (freshBlock_received enabled).noVotes p
  | insertBlock q =>
      exact .inl ((keeps_insertBlock (fun _ _ _ _ => rfl) core q).blocks p)
  | vote | selfVote => cases noVote
  | proposal q proposer =>
      exact .inl (selfQc_onReceiveProposal anchored.tree q proposer p)
  | doPropose body => exact votesKept_proposeBody core _ body p
  | doEmptyPropose body => exact votesKept_proposeBody core _ body p
  | garbageCollect =>
      refine .inl (BlockStore.property_runGc HotstuffBlock.selfQc ?_ core.store p)
      intro block
      unfold BlockStore.flushFromMemory
      split <;> rfl

/-- The replicas whose votes on the block have been counted. -/
def signers (core : HotstuffCore) (p : BlockPtr) : Finset ReplicaID :=
  (core.block p).selfQc.sigs.keys.toFinset

omit [Externals] in
theorem keys_of_added {qc extended : QuorumCertificate} {rid : ReplicaID}
    {pc : PartialCertificate}
    (added : qc.addPartialCertificate rid pc = .ok extended) :
    extended.sigs.keys.toFinset = insert rid qc.sigs.keys.toFinset := by
  unfold QuorumCertificate.addPartialCertificate at added
  split at added
  · cases added
  split at added
  · cases added
  obtain rfl := Except.ok.inj added
  ext voter
  rw [List.mem_toFinset, Finset.mem_insert, List.mem_toFinset]
  exact OrderedMap.mem_keys_insertWith _ _ _ _ _

omit [Externals] in
theorem keys_offer (qc : QuorumCertificate) (rid : ReplicaID)
    (pc : PartialCertificate) :
    qc.sigs.keys.toFinset ⊆ (qc.offer (rid, pc)).sigs.keys.toFinset := by
  cases added : qc.addPartialCertificate rid pc with
  | ok extended =>
      rw [QuorumCertificate.offer_of_ok added, keys_of_added added]
      exact Finset.subset_insert rid _
  | error message => rw [QuorumCertificate.offer_of_error added]

theorem signers_receiveVote (core : HotstuffCore) (vote : ReceivedVote)
    {p : BlockPtr} (inside : p < core.store.heap.length) :
    core.signers p ⊆ (core.receiveVote vote).signers p := by
  rw [signers, signers, selfQc_receiveVote core vote inside, contribution]
  split
  · exact keys_offer _ _ _
  · exact fun _ => id

theorem GoodVote.signs {vote : ReceivedVote}
    (good : core.GoodVote vote.partialCert vote.certifiedBlock vote.voterid)
    (inside : vote.certifiedBlock < core.store.heap.length) :
    vote.voterid ∈ (core.receiveVote vote).signers vote.certifiedBlock := by
  obtain ⟨extended, added⟩ := good.added
  rw [signers, selfQc_receiveVote core vote inside, contribution, if_pos rfl]
  change _ ∈ ((core.block vote.certifiedBlock).selfQc.offer
    (vote.voterid, vote.partialCert)).sigs.keys.toFinset
  rw [QuorumCertificate.offer_of_ok added, keys_of_added added]
  exact Finset.mem_insert_self _ _

/-- Votes stay counted. -/
theorem Anchored.signers_step (anchored : core.Anchored)
    (enabled : core.Enabled event) {p : BlockPtr}
    (inside : p < core.store.heap.length) :
    core.signers p ⊆ (core.step event).signers p := by
  cases isVote : core.ballot event with
  | some vote =>
      rw [step_ballot isVote]
      exact signers_receiveVote core vote inside
  | none =>
      rcases anchored.votesKept_step enabled isVote p with same | ⟨new, -⟩
      · rw [signers, signers, same]
      · exact (Nat.not_lt.mpr new inside).elim

/-- A processed vote is counted. -/
theorem Anchored.signs_step (anchored : core.Anchored)
    (configured : core.Configured) (enabled : core.Enabled event)
    {vote : ReceivedVote} (isVote : core.ballot event = some vote) :
    vote.voterid ∈ (core.step event).signers vote.certifiedBlock := by
  have good := anchored.goodBallot configured enabled isVote
  rw [step_ballot isVote]
  exact good.signs (anchored.tree.lt_of_placed good.placed)

/-! ### Quorums are noticed -/

/-- A block with a quorum of votes is not above the highest certified block. -/
def QuorumsNoticed (core : HotstuffCore) : Prop :=
  ∀ p, (core.block p).selfQc.hasQuorum core.config = true →
    core.store.Placed p ∧
      core.store.height p ≤ core.store.height core.hqc.1

theorem QuorumsNoticed.receiveVote (noticed : core.QuorumsNoticed)
    {vote : ReceivedVote} (tree : core.store.WellFormed)
    (placed : core.store.Placed vote.certifiedBlock) :
    (core.receiveVote vote).QuorumsNoticed := by
  have inside := tree.lt_of_placed placed
  have same := sameTree_receiveVote core vote
  have raised : core.store.height core.hqc.1 ≤
      core.store.height (core.receiveVote vote).hqc.1 := by
    rcases receiveVote_cases core vote inside with ⟨-, -, hqc⟩ | ⟨-, -, hqc⟩
    · rw [hqc]
      split
      · rename_i higher
        exact higher.le
      · exact le_rfl
    · rw [hqc]
  intro p quorum
  rw [config_receiveVote] at quorum
  rw [same.height, same.height, same.placed]
  by_cases had : (core.block p).selfQc.hasQuorum core.config = true
  · exact ⟨(noticed p had).1, (noticed p had).2.trans raised⟩
  -- the vote has completed the quorum
  by_cases isBlock : vote.certifiedBlock = p
  · subst isBlock
    rw [selfQc_receiveVote core vote inside, contribution, if_pos rfl] at quorum
    refine ⟨placed, ?_⟩
    rcases receiveVote_cases core vote inside with
      ⟨-, -, hqc⟩ | ⟨incomplete, -, -⟩
    · rw [hqc]
      split
      · exact le_rfl
      · rename_i notHigher
        exact Nat.le_of_not_lt notHigher
    · exact (incomplete ⟨Bool.eq_false_of_not_eq_true had, quorum⟩).elim
  · by_cases range : p < core.store.heap.length
    · rw [selfQc_receiveVote core vote range, contribution, if_neg isBlock]
        at quorum
      exact (had quorum).elim
    · have outside := Nat.le_of_not_lt range
      rw [block, BlockStore.block, List.getD_eq_getElem?_getD,
        List.getElem?_eq_none (same.length.trans_le outside)] at quorum
      rw [block, BlockStore.block, List.getD_eq_getElem?_getD,
        List.getElem?_eq_none outside] at had
      exact (had quorum).elim

theorem QuorumsNoticed.step (noticed : core.QuorumsNoticed)
    (anchored : core.Anchored) (configured : core.Configured)
    (positive : 0 < core.config.nmajority) (enabled : core.Enabled event) :
    (core.step event).QuorumsNoticed := by
  cases isVote : core.ballot event with
  | some vote =>
      rw [step_ballot isVote]
      exact noticed.receiveVote anchored.tree
        (anchored.goodBallot configured enabled isVote).placed
  | none =>
      have longer := (grows_step anchored.tree enabled).2
      have rises := (leafMoves_step anchored.tree event).hqcRises anchored
      intro p quorum
      rw [(anchored.sends_step event).config] at quorum
      rcases anchored.votesKept_step enabled isVote p with
        same | ⟨new, noVotes⟩
      · rw [same] at quorum
        obtain ⟨placed, low⟩ := noticed p quorum
        rw [longer.height placed, longer.height rises.placed]
        exact ⟨longer.placed placed, low.trans rises.higher⟩
      · have few := of_decide_eq_true quorum
        rw [OrderedMap.size, noVotes] at few
        exact (Nat.not_le.mpr positive few).elim

/-- A new highest certificate is for a stored block, or the last vote for it is
an own one. -/
theorem Anchored.hqc_step (anchored : core.Anchored)
    (configured : core.Configured) (enabled : core.Enabled event) :
    (core.step event).hqc.1 = core.hqc.1 ∨
      core.store.Stored (core.step event).hqc.1 ∨
      event = .selfVote (core.step event).hqc.1 := by
  have tree := anchored.tree
  have voted {vote : ReceivedVote}
      (isVote : core.ballot event = some vote) :
      (core.step event).hqc.1 = core.hqc.1 ∨
        (core.step event).hqc.1 = vote.certifiedBlock := by
    have inside := tree.lt_of_placed
      (anchored.goodBallot configured enabled isVote).placed
    rw [step_ballot isVote]
    rcases receiveVote_cases core vote inside with ⟨-, -, hqc⟩ | ⟨-, -, hqc⟩
    · rw [hqc]
      split
      · exact .inr rfl
      · exact .inl rfl
    · exact .inl (congrArg Prod.fst hqc)
  have updated (core : HotstuffCore) (tree : core.store.WellFormed)
      (p : BlockPtr) : (core.update p).hqc.1 = core.hqc.1 ∨
        core.store.Stored (core.update p).hqc.1 := by
    rcases core.proposing_update p with same | ⟨justify, names, same⟩
    · exact .inl (congrArg (fun proposing => proposing.2.1) same)
    rcases core.proposing_updateHqc justify
      (core.block p).getJustifyQc with kept | ⟨-, raised⟩
    · exact .inl (congrArg (fun proposing => proposing.2.1) (same.trans kept))
    · have isJustify : (core.update p).hqc.1 = justify :=
        congrArg (fun proposing => proposing.2.1) (same.trans raised)
      rw [isJustify]
      exact .inr (tree.justify_stored names).1
  cases event with
  | receiveBlock | insertBlock | garbageCollect => exact .inl rfl
  | vote cert p voter =>
      refine (voted rfl).imp_right fun isBlock => .inl ?_
      rw [isBlock]
      exact (tree.stored_of_getBlock enabled.2.1).1
  | selfVote p =>
      refine (voted rfl).imp_right fun isBlock => .inr ?_
      rw [isBlock]
  | doPropose body | doEmptyPropose body =>
      left
      exact congrArg (fun core => core.hqc.1) (anchored.proposeBody_eq _ body)
  | proposal p proposer =>
      rcases onReceiveProposal_cases tree p proposer with
        ⟨-, result⟩ | ⟨-, result⟩ <;> rw [HotstuffCore.step, result]
      · exact (updated (core.castVote p proposer) tree p).imp_right .inl
      · exact (updated core tree p).imp_right .inl

/-! ### Heights of votes and certificates -/

/-- The vote height is the height of a block that has the replica's vote. -/
def VoteHeightReached (core : HotstuffCore) : Prop :=
  core.vheight = 0 ∨ ∃ p, core.store.Placed p ∧
    core.store.hash p ∈ core.votedHashes ∧ core.store.height p = core.vheight

omit [Externals] in
theorem height_lt_of_fits (fits : Deployment.HeightsFit core) {p : BlockPtr}
    (inside : p < core.store.heap.length) :
    core.store.height p < 2 ^ 32 := by
  have found : core.store.block p ∈ core.store.heap := by
    rw [BlockStore.block, List.getD_eq_getElem?_getD,
      List.getElem?_eq_getElem inside]
    exact List.getElem_mem inside
  exact fits _ found

/-- A vote is cast in no other event than a proposal. -/
theorem Anchored.vheight_step (anchored : core.Anchored)
    (enabled : core.Enabled event) (fits : Deployment.HeightsFit core) :
    (core.step event).vheight = core.vheight ∨
      ∃ p proposer, event = .proposal p proposer ∧
        core.opinion p = some true ∧
        core.vheight < core.store.height p ∧
        (core.step event).vheight = core.store.height p := by
  rcases votes_step anchored.tree event with
    kept | ⟨p, proposer, rfl, higher, raised, voted⟩
  · exact .inl kept.vheight
  have placed := anchored.placed_of_height enabled.2.1
  rw [Nat.mod_eq_of_lt (height_lt_of_fits fits
    (anchored.tree.lt_of_placed placed))] at raised
  refine .inr ⟨p, proposer, rfl, ?_, higher, raised⟩
  rcases onReceiveProposal_cases anchored.tree p proposer with
    ⟨favourable, -⟩ | ⟨-, result⟩
  · exact favourable
  · rw [HotstuffCore.step, result, (keepsVotes_update core p).vheight]
      at raised
    omega

theorem VoteHeightReached.step (reached : core.VoteHeightReached)
    (anchored : core.Anchored) (enabled : core.Enabled event)
    (fits : Deployment.HeightsFit core) :
    (core.step event).VoteHeightReached := by
  have longer := (grows_step anchored.tree enabled).2
  have votes := (anchored.sends_step event).votedHashes
  rcases anchored.vheight_step enabled fits with
    same | ⟨p, proposer, rfl, favourable, -, raised⟩
  · rw [VoteHeightReached, same, votes]
    refine reached.imp_right fun ⟨p, placed, voted, height⟩ =>
      ⟨p, longer.placed placed, ?_, (longer.height placed).trans height⟩
    rw [longer.hash placed]
    exact List.mem_append_right _ voted
  · have placed := anchored.placed_of_height enabled.2.1
    refine .inr ⟨p, longer.placed placed, ?_,
      (longer.height placed).trans raised.symm⟩
    rw [votes, longer.hash placed, newVotes, if_pos favourable]
    exact List.mem_append_left _ (List.mem_singleton_self _)

/-- No proposal has a certificate above the highest one. -/
def CertificatesHeld (collisionFree : CollisionFree) (core : HotstuffCore) :
    Prop :=
  ∀ wireBlock ∈ core.proposedWires,
    (headerForest collisionFree).height wireBlock.header.qc.justify ≤
      core.store.height core.hqc.1

theorem CertificatesHeld.step (held : core.CertificatesHeld collisionFree)
    (anchored : core.Anchored) (enabled : core.Enabled event) :
    (core.step event).CertificatesHeld collisionFree := by
  have longer := (grows_step anchored.tree enabled).2
  have rises := (leafMoves_step anchored.tree event).hqcRises anchored
  intro wireBlock proposed
  rw [(anchored.sends_step event).proposedWires] at proposed
  rw [longer.height rises.placed]
  refine Nat.le_trans ?_ rises.higher
  rcases List.mem_append.mp proposed with new | old
  · have minted : ∃ body, wireBlock = (core.minted body).wireBlock := by
      cases event with
      | doPropose body | doEmptyPropose body =>
          exact ⟨body, List.mem_singleton.mp new⟩
      | _ => cases new
    obtain ⟨body, rfl⟩ := minted
    change (headerForest collisionFree).height core.hqc.2.justify ≤ _
    rw [anchored.hqcHash, anchored.tree.height_eq collisionFree
      anchored.hqcPlaced]
  · exact held wireBlock old

/-! ### The vote on a processed block -/

/-- A block above all votes is voted for when its justify block is above the
lock, and in any case when there is no lock. -/
theorem opinion_of_higher (tree : core.store.WellFormed)
    {p justify : BlockPtr} (new : core.vheight < core.store.height p)
    (names : (core.block p).justifyBlockPtr = some justify)
    (unlocked : core.bLock = 0 ∨
      core.store.height core.bLock < core.store.height justify) :
    core.opinion p = some true := by
  rcases unlocked with genesis | lower
  · exact opinion_of_genesis_lock tree genesis new
  · rw [opinion, if_pos new]
    simp only [names, if_pos lower]

/-- The replica has voted for the block, or a vote or the lock is in the way. -/
def Considered (core : HotstuffCore) (p : BlockPtr) : Prop :=
  core.store.hash p ∈ core.votedHashes ∨
    core.store.height p ≤ core.vheight ∨
    core.bLock ≠ 0 ∧ ∃ justify, (core.block p).justifyBlockPtr = some justify ∧
      core.store.height justify ≤ core.store.height core.bLock

theorem Considered.step {p : BlockPtr} (considered : core.Considered p)
    (anchored : core.Anchored) (enabled : core.Enabled event)
    (fits : Deployment.HeightsFit core)
    (moves : LockMoves core event (core.step event))
    (placed : core.store.Placed p) : (core.step event).Considered p := by
  have longer := (grows_step anchored.tree enabled).2
  rcases considered with voted | passed | ⟨locked, justify, names, low⟩
  · left
    rw [longer.hash placed, (anchored.sends_step event).votedHashes]
    exact List.mem_append_right _ voted
  · right; left
    rw [longer.height placed]
    rcases anchored.vheight_step enabled fits with
      same | ⟨_, _, -, -, higher, raised⟩
    · rwa [same]
    · omega
  · right; right
    have justifyPlaced := (anchored.tree.justify_stored names).2.1
    have names' : ((core.step event).block p).justifyBlockPtr = some justify :=
      (congrArg HotstuffBlock.Links.justifyBlockPtr
        (longer.links p placed)).trans names
    cases moves with
    | stays lock =>
        refine ⟨lock.symm ▸ locked, justify, names', ?_⟩
        rwa [lock, longer.height justifyPlaced,
          longer.height anchored.lockPlaced]
    | rises _ _ lockPlaced higher _ _ =>
        refine ⟨?_, justify, names', ?_⟩
        · intro genesis
          rw [genesis, anchored.tree.genesis_height] at higher
          omega
        · rw [longer.height justifyPlaced, longer.height lockPlaced]
          exact low.trans higher.le

theorem considered_proposal (anchored : core.Anchored) {p : BlockPtr}
    {proposer : ReplicaID} (enabled : core.Enabled (.proposal p proposer))
    (fits : Deployment.HeightsFit core)
    (moves : LockMoves core (.proposal p proposer)
      (core.step (.proposal p proposer))) :
    (core.step (.proposal p proposer)).Considered p := by
  have placed := anchored.placed_of_height enabled.2.1
  by_cases favourable : core.opinion p = some true
  · left
    rw [((grows_step anchored.tree enabled).2).hash placed,
      (anchored.sends_step _).votedHashes, newVotes, if_pos favourable]
    exact List.mem_append_left _ (List.mem_singleton_self _)
  have considered : core.Considered p := by
    by_cases new : core.vheight < core.store.height p
    · right; right
      have linked := anchored.tree.linked_of_height_pos
        (Nat.pos_of_ne_zero enabled.2.1)
      obtain ⟨parent, -, proper⟩ := anchored.tree.parent_of_linked linked
      obtain ⟨justify, names, -⟩ := proper.justifyStored
      refine ⟨fun genesis => favourable (opinion_of_higher anchored.tree new names
        (.inl genesis)), justify, names, Nat.le_of_not_lt fun lower =>
          favourable (opinion_of_higher anchored.tree new names (.inr lower))⟩
    · exact .inr (.inl (Nat.le_of_not_lt new))
  exact considered.step anchored enabled fits moves placed

/-! ### What a processed block commits -/

/-- The bottom of a chain of three on which the block has its certificate is
committed. -/
def Settled {deployment : Deployment} (configured : deployment.WellConfigured)
    (collisionFree : CollisionFree) (core : HotstuffCore) (hash : Hash) :
    Prop :=
  ∀ bottom middle top, headerJustify hash = some top →
    (configured.rules collisionFree).ThreeChain bottom middle top →
      bottom = zeroHash ∨ bottom ∈ core.committed

theorem Settled.later {deployment : Deployment}
    {configured : deployment.WellConfigured} {after : HotstuffCore}
    {hash : Hash} (settled : core.Settled configured collisionFree hash)
    (longer : core.committed <+: after.committed) :
    after.Settled configured collisionFree hash :=
  fun bottom middle top justifies chain =>
    (settled bottom middle top justifies chain).imp_right
      fun member => longer.subset member

/-- Decided blocks and their ancestors are committed. -/
theorem Valid.committed_of_decided (valid : core.Valid collisionFree)
    {p : BlockPtr} (placed : core.store.Placed p)
    (decided : (core.block p).decided = true) {hash : Hash}
    (above : (headerForest collisionFree).Ancestor hash
      (core.store.hash p)) :
    hash = zeroHash ∨ hash ∈ core.committed := by
  obtain ⟨passed, chain⟩ := (valid.decidedIff p
    (valid.tree.lt_of_placed placed)).mp decided
  exact valid.committedPath.mem_of_ancestor
    (above.trans (valid.tree.chain_ancestor collisionFree chain))

theorem update_eq_updateExec {nblk blk2 blk1 : BlockPtr}
    (names2 : (core.block nblk).justifyBlockPtr = some blk2)
    (open2 : (core.block blk2).decided = false)
    (names1 : (core.block blk2).justifyBlockPtr = some blk1)
    (open1 : (core.block blk1).decided = false) :
    core.update nblk = ((core.updateHqc blk2
      (core.block nblk).getJustifyQc).lockAndWrite blk1).updateExec
        blk2 blk1 := by
  have sameBlock (p : BlockPtr) : (core.updateHqc blk2
      (core.block nblk).getJustifyQc).block p = core.block p := by
    rw [block, updateHqc_store, block]
  rw [update]
  simp only [names2, open2, Bool.false_eq_true, if_false]
  rw [updateLock]
  simp only [sameBlock, names1, open1, Bool.false_eq_true, if_false]
  rw [writeLock_raiseLock]

/-- Three open blocks in a row are committed, unless the run ends. -/
theorem bExec_updateExec {blk2 blk1 blk : BlockPtr}
    (names : (core.block blk1).justifyBlockPtr = some blk)
    (open0 : (core.block blk).decided = false)
    (parent2 : (core.block blk2).parentBlockPtr = some blk1)
    (parent1 : (core.block blk1).parentBlockPtr = some blk)
    (alive : (core.updateExec blk2 blk1).failed = none) :
    (core.updateExec blk2 blk1).bExec = blk := by
  unfold updateExec at alive ⊢
  simp only [names, open0, parent2, parent1, Bool.false_eq_true, if_false,
    ne_eq, not_true_eq_false, or_self] at alive ⊢
  split at alive
  · cases alive
  split at alive
  · cases alive
  rename_i arrived
  rw [if_neg arrived]
  rfl

/-- `update` settles the block that it is called with. -/
theorem settled_update {deployment : Deployment}
    {configured : deployment.WellConfigured}
    (valid : core.Valid collisionFree) {p : BlockPtr}
    (linked : (core.block p).Linked)
    (valid' : (core.update p).Valid collisionFree)
    (alive : (core.update p).failed = none) :
    Settled configured collisionFree (core.update p) (core.store.hash p) := by
  intro bottom middle top justifies chain
  obtain ⟨effects, traceEq, -⟩ := (internal_update core p).trace
  have tree := valid.tree
  have middleAbove := ParentForest.Ancestor.of_parent chain.middleParent
  have topAbove := middleAbove.tail chain.topParent
  have earlier {q : BlockPtr} (placed : core.store.Placed q)
      (decided : (core.block q).decided = true)
      (above : (headerForest collisionFree).Ancestor bottom
        (core.store.hash q)) :
      bottom = zeroHash ∨ bottom ∈ (core.update p).committed :=
    (valid.committed_of_decided placed decided above).imp_right
      fun member => (committed_grows traceEq).subset member
  obtain ⟨_, -, proper⟩ := tree.parent_of_linked linked
  obtain ⟨blk2, names2, -⟩ := proper.justifyStored
  have placed2 := (tree.justify_stored names2).2.1
  obtain rfl : core.store.hash blk2 = top := Option.some.inj
    ((tree.justify_edge collisionFree names2).symm.trans justifies)
  cases open2 : (core.block blk2).decided with
  | true => exact earlier placed2 open2 topAbove
  | false =>
  obtain ⟨blk1, parent2, names1, rfl, placed1⟩ :=
    tree.direct_parent collisionFree placed2 chain.topParent chain.topJustify
  cases open1 : (core.block blk1).decided with
  | true => exact earlier placed1 open1 middleAbove
  | false =>
  obtain ⟨blk, parent1, names, rfl, placed⟩ :=
    tree.direct_parent collisionFree placed1 chain.middleParent
      chain.middleJustify
  cases open0 : (core.block blk).decided with
  | true => exact earlier placed open0 (.refl _)
  | false =>
  have result := update_eq_updateExec names2 open2 names1 open1
  have kept {Property : Type} (property : HotstuffBlock → Property)
      (written : ∀ block, property (.markWritten block) = property block)
      (q : BlockPtr) : property (((core.updateHqc blk2
        (core.block p).getJustifyQc).lockAndWrite blk1).block q) =
          property (core.block q) := by
    have lockEq := property_lockAndWrite property written
      (core.updateHqc blk2 (core.block p).getJustifyQc) blk1 q
    rwa [updateHqc_store] at lockEq
  have exec : (core.update p).bExec = blk := by
    rw [result] at alive ⊢
    exact bExec_updateExec
      ((kept HotstuffBlock.justifyBlockPtr (fun _ => rfl) blk1).trans names)
      ((kept HotstuffBlock.decided (fun _ => rfl) blk).trans open0)
      ((kept HotstuffBlock.parentBlockPtr (fun _ => rfl) blk2).trans parent2)
      ((kept HotstuffBlock.parentBlockPtr (fun _ => rfl) blk1).trans parent1)
      alive
  have path := valid'.committedPath
  rw [exec, (sameTree_update tree p).hash] at path
  exact path.mem_of_ancestor (.refl _)

/-! ### Processed events -/

/-- What an event leaves behind. -/
def Done {deployment : Deployment} (configured : deployment.WellConfigured)
    (collisionFree : CollisionFree) (core : HotstuffCore) : Event → Prop
  | .proposal p _ => core.store.Placed p ∧ core.Considered p ∧
      core.Settled configured collisionFree (core.store.hash p)
  | .vote _ p voter => core.store.Placed p ∧ voter ∈ core.signers p
  | .selfVote p => core.store.Placed p ∧ core.selfId ∈ core.signers p
  | _ => True

section Done

variable {deployment : Deployment} {configured : deployment.WellConfigured}

/-- What has been done stays done. -/
theorem Done.step {done : Event} (left : core.Done configured collisionFree done)
    (anchored : core.Anchored) (enabled : core.Enabled event)
    (fits : Deployment.HeightsFit core)
    (moves : LockMoves core event (core.step event)) :
    (core.step event).Done configured collisionFree done := by
  have longer := (grows_step anchored.tree enabled).2
  have counted {p : BlockPtr} (placed : core.store.Placed p) :
      core.signers p ⊆ (core.step event).signers p :=
    anchored.signers_step enabled (anchored.tree.lt_of_placed placed)
  cases done with
  | proposal p proposer =>
      obtain ⟨placed, considered, settled⟩ := left
      obtain ⟨effects, traceEq, -⟩ := anchored.trace_step event
      refine ⟨longer.placed placed,
        considered.step anchored enabled fits moves placed, ?_⟩
      rw [longer.hash placed]
      exact settled.later (committed_grows traceEq)
  | vote cert p voter => exact ⟨longer.placed left.1, counted left.1 left.2⟩
  | selfVote p =>
      refine ⟨longer.placed left.1, ?_⟩
      rw [(anchored.sends_step event).selfId]
      exact counted left.1 left.2
  | _ => trivial

/-- An event that has been processed is done. -/
theorem Valid.done_step (valid : core.Valid collisionFree)
    (settings : core.Configured) (enabled : core.Enabled event)
    (fits : Deployment.HeightsFit core)
    (moves : LockMoves core event (core.step event))
    (alive : (core.step event).failed = none) :
    (core.step event).Done configured collisionFree event := by
  have anchored := valid.anchored
  have longer := (grows_step anchored.tree enabled).2
  have counted {vote : ReceivedVote}
      (isVote : core.ballot event = some vote) :
      (core.step event).store.Placed vote.certifiedBlock ∧
        vote.voterid ∈ (core.step event).signers vote.certifiedBlock :=
    ⟨longer.placed (anchored.goodBallot settings enabled isVote).placed,
      anchored.signs_step settings enabled isVote⟩
  cases event with
  | vote cert p voter => exact counted rfl
  | selfVote p =>
      rw [Done, (anchored.sends_step (.selfVote p)).selfId]
      exact counted rfl
  | proposal p proposer =>
      have placed := anchored.placed_of_height enabled.2.1
      refine ⟨longer.placed placed,
        considered_proposal anchored enabled fits moves, ?_⟩
      rw [longer.hash placed]
      have linked := anchored.tree.linked_of_height_pos
        (Nat.pos_of_ne_zero enabled.2.1)
      rcases onReceiveProposal_cases anchored.tree p proposer with
        ⟨-, result⟩ | ⟨-, result⟩ <;>
        rw [HotstuffCore.step, result] at alive ⊢
      · have voted := valid.castVote placed proposer
        exact settled_update voted linked (voted.update p) alive
      · exact settled_update valid linked (valid.update p) alive
  | _ => trivial

end Done

end HotstuffCore

namespace Deployment

variable {deployment : Deployment} {state : SystemState}

theorem WellConfigured.nmajority_pos (configured : deployment.WellConfigured) :
    0 < deployment.config.nmajority := by
  obtain ⟨infos, built⟩ := configured.finished
  obtain ⟨-, -, -, card, majority⟩ := ReplicaConfig.build_spec built
  have few := configured.fewFaulty
  omega

section Reachable

variable (collisionFree : CollisionFree)
  (configured : deployment.WellConfigured)
  (reachable : deployment.honestProposerSystem.Reachable state)

include collisionFree configured reachable

theorem quorumsNoticed_of_reachable (rid : ReplicaID) :
    (state rid).QuorumsNoticed := by
  have positive := configured.nmajority_pos
  refine core_invariant reachable rid HotstuffCore.QuorumsNoticed ?_ ?_
  · intro p quorum
    have none : ((HotstuffCore.init rid deployment.config
        (deployment.secretKey rid)).block p).selfQc.sigs.size = 0 := by
      cases p <;> rfl
    have enough := of_decide_eq_true quorum
    rw [none] at enough
    exact (Nat.not_le.mpr positive enough).elim
  · intro state event reached enabled noticed
    obtain ⟨abstract, tracks⟩ :=
      tracks_of_reachable collisionFree configured reached rid
    refine noticed.step tracks.valid.anchored
      (tracks.core_configured enabled.1) ?_ enabled.2.1
    rwa [tracks.sameConfig]

theorem voteHeightReached_of_reachable (rid : ReplicaID) :
    (state rid).VoteHeightReached := by
  refine core_invariant reachable rid HotstuffCore.VoteHeightReached
    (.inl rfl) ?_
  intro state event reached enabled height
  obtain ⟨abstract, tracks⟩ :=
    tracks_of_reachable collisionFree configured reached rid
  exact height.step tracks.valid.anchored enabled.2.1 enabled.2.2.2.2

theorem certificatesHeld_of_reachable (rid : ReplicaID) :
    (state rid).CertificatesHeld collisionFree := by
  refine core_invariant reachable rid
    (HotstuffCore.CertificatesHeld collisionFree) ?_ ?_
  · intro wireBlock proposed
    cases proposed
  · intro state event reached enabled held
    obtain ⟨abstract, tracks⟩ :=
      tracks_of_reachable collisionFree configured reached rid
    exact held.step tracks.valid.anchored enabled.2.1

end Reachable

end Deployment

end Processed

end Hotstuff
