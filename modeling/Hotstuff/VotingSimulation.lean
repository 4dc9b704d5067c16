import Hotstuff.VotingRefinement

/-!
# Runs of the system are runs of chained voting

Every event of a replica is matched by at most one step of the abstract voting
protocol: a processed proposal by a vote or a move of the lock, every other
event by nothing.
-/

namespace Hotstuff

open Function

variable [WireTypes] [Externals]

namespace HotstuffCore

variable {collisionFree : CollisionFree}

/-- What all events except proposals leave alone. -/
structure KeepsLock (core after : HotstuffCore) : Prop where
  longer : core.store.Extends after.store
  bLock : after.bLock = core.bLock
  vheight : after.vheight = core.vheight
  failed : after.failed = core.failed

theorem Valid.keepsLock_onReceiveVote {core : HotstuffCore}
    (valid : core.Valid collisionFree) {cert : PartialCertificate}
    {p : BlockPtr} {voter : ReplicaID} (good : core.GoodVote cert p voter) :
    KeepsLock core (core.onReceiveVote cert p voter) := by
  have alive := (valid.anchored.onReceiveVote good).2
  rcases core.onReceiveVote_cases cert p voter with
    ⟨message, rejected, -⟩ | ⟨extended, added, outcome⟩
  · obtain ⟨_, accepted⟩ := good.added
    rw [accepted] at rejected
    cases rejected
  have longer := (sameTree_onReceiveVote core cert p voter).extends
  rcases outcome with ⟨-, -, result⟩ | result
  · rw [result] at alive longer ⊢
    exact ⟨longer, updateHqc_bLock (core.withVote p extended) p extended,
      updateHqc_vheight (core.withVote p extended) p extended, alive⟩
  · rw [result] at alive longer ⊢
    exact ⟨longer, rfl, rfl, alive⟩

theorem Valid.keepsLock_proposeBody {core : HotstuffCore}
    (valid : core.Valid collisionFree) (nonemptyProposal : Bool)
    (body : Body) :
    KeepsLock core (core.proposeBody nonemptyProposal body) := by
  obtain ⟨-, longer, -⟩ := valid.anchored.mintedStore body
  rw [valid.anchored.proposeBody_eq]
  exact ⟨longer, rfl, rfl, rfl⟩

theorem Valid.voted_of_votedToSelf {core : HotstuffCore}
    (valid : core.Valid collisionFree) {p : BlockPtr}
    (voted : core.votedToSelf p = true) :
    core.store.hash p ∈ core.votedHashes := by
  obtain ⟨effect, member, isVote⟩ := List.any_eq_true.mp voted
  cases effect with
  | doVote block cert target =>
      simp only [Bool.and_eq_true, beq_iff_eq] at isVote
      obtain ⟨rfl, -⟩ := isVote
      obtain ⟨-, rfl⟩ := valid.votedPlaced _ _ _ member
      exact List.mem_filterMap.mpr ⟨_, member, rfl⟩
  | _ => cases isVote

end HotstuffCore

section Simulation

variable {deployment : Deployment} {configured : deployment.WellConfigured}
  {collisionFree : CollisionFree}

theorem Tracks.core_configured {abstract : VoteState ReplicaID Hash}
    {rid : ReplicaID} {core : HotstuffCore}
    (tracks : Tracks configured collisionFree abstract rid core)
    (member : rid ∈ deployment.config.ids) : core.Configured where
  idsSmall := by
    rw [tracks.sameConfig]
    exact configured.idsSmall
  selfSigns := by
    rw [tracks.sameConfig, tracks.sameId, tracks.sameKey]
    exact configured.selfSigns rid member

/-- Replicas that do not take part in a step stay in step with the abstract
state. -/
theorem Tracks.other {abstract : VoteState ReplicaID Hash} {rid : ReplicaID}
    {core : HotstuffCore}
    (tracks : Tracks configured collisionFree abstract rid core)
    {step : VotingRules.Step ReplicaID Hash} (different : step.replica ≠ rid) :
    Tracks configured collisionFree
      ((configured.rules collisionFree).system.next abstract step) rid core := by
  let next := (configured.rules collisionFree).system.next abstract step
  obtain ⟨sameVotes, sameLock⟩ : next.votes rid = abstract.votes rid ∧
      next.lock rid = abstract.lock rid :=
    VotingRules.next_other different
  exact
    { tracks.toGrounded.next step with
      sameId := tracks.sameId
      sameKey := tracks.sameKey
      alive := tracks.alive
      votes := by rw [sameVotes]; exact tracks.votes
      lock := by rw [sameLock]; exact tracks.lock
      voteHeights := tracks.voteHeights }

/-- An event that neither votes nor moves the lock. -/
theorem Tracks.stutter {abstract : VoteState ReplicaID Hash} {rid : ReplicaID}
    {core after : HotstuffCore}
    (tracks : Tracks configured collisionFree abstract rid core)
    (grounded : Grounded configured collisionFree abstract after)
    {proposals : List HotstuffBlockWire} (sends : core.Sends after [] proposals)
    (keeps : core.KeepsLock after) :
    Tracks configured collisionFree abstract rid after :=
  { grounded with
    sameId := sends.selfId.trans tracks.sameId
    sameKey := sends.secretKey.trans tracks.sameKey
    alive := keeps.failed.trans tracks.alive
    votes := tracks.votes.trans sends.votedHashes.symm
    lock := by
      rw [keeps.bLock, keeps.longer.hash tracks.valid.lockPlaced]
      exact tracks.lock
    voteHeights := by
      rw [sends.votedHashes, keeps.vheight]
      exact tracks.voteHeights }

/-! ### Proposals -/

section Proposal

variable {abstract : VoteState ReplicaID Hash} {rid : ReplicaID}
  {core after : HotstuffCore} {p : BlockPtr}

section Lock

variable (grounded : Grounded configured collisionFree abstract core)
  (moves : LockMoves core after p)

include grounded moves

theorem LockMoves.placed : core.store.Placed after.bLock := by
  rcases moves.choice with same | ⟨q, names⟩
  · rw [same]
    exact grounded.valid.lockPlaced
  · exact (grounded.valid.tree.justify_stored names).2.1

/-- The lock after `update` is one that the abstract protocol may take. -/
theorem LockMoves.lockable
    (invariant : (configured.rules collisionFree).Invariant abstract)
    (lock : abstract.lock rid = core.store.hash core.bLock) :
    (configured.rules collisionFree).Lockable abstract rid
      (core.store.hash after.bLock) where
  certified := by
    rcases moves.choice with same | ⟨q, names⟩
    · rw [same, ← lock]
      exact invariant.lockCertified rid
    · exact grounded.justify_certified names
  rooted := grounded.valid.tree.rooted collisionFree (moves.placed grounded)
  higher := by
    rw [lock]
    change (headerForest collisionFree).height _ ≤
      (headerForest collisionFree).height _
    rw [grounded.valid.tree.height_eq collisionFree grounded.valid.lockPlaced,
      grounded.valid.tree.height_eq collisionFree (moves.placed grounded)]
    exact moves.higher

/-- It covers the block that was proposed. -/
theorem LockMoves.coversProposal (linked : (core.block p).Linked) :
    (configured.rules collisionFree).Covers (core.store.hash after.bLock)
      (core.store.hash p) := by
  have tree := grounded.valid.tree
  intro middle bottom middleNamed bottomNamed
  obtain ⟨_, -, proper⟩ := tree.parent_of_linked linked
  obtain ⟨blk2, names2, -⟩ := proper.justifyStored
  obtain rfl : core.store.hash blk2 = middle := Option.some.inj
    ((tree.justify_edge collisionFree names2).symm.trans middleNamed)
  rcases (tree.justify_stored names2).2.1 with rfl | linked2
  · rw [tree.genesis_hash] at bottomNamed
    have noHeader : headerJustify (zeroHash : Hash) = none := by
      rw [headerJustify, dif_neg]
      rintro ⟨header, zero⟩
      exact collisionFree.ne_zero header zero
    exact (Option.some_ne_none _ (bottomNamed.symm.trans noHeader)).elim
  · obtain ⟨_, -, proper2⟩ := tree.parent_of_linked linked2
    obtain ⟨blk1, names1, -⟩ := proper2.justifyStored
    obtain rfl : core.store.hash blk1 = bottom := Option.some.inj
      ((tree.justify_edge collisionFree names1).symm.trans bottomNamed)
    change (headerForest collisionFree).height _ ≤
      (headerForest collisionFree).height _
    rw [tree.height_eq collisionFree (tree.justify_stored names1).2.1,
      tree.height_eq collisionFree (moves.placed grounded)]
    exact moves.covers blk2 blk1 names2 names1

end Lock

variable (tracks : Tracks configured collisionFree abstract rid core)

include tracks

/-- A favourable opinion follows the abstract vote rule. -/
theorem Tracks.votable (favourable : core.opinion p = some true) :
    (∀ earlier ∈ abstract.votes rid,
      (headerForest collisionFree).height earlier.1 <
        (headerForest collisionFree).height (core.store.hash p)) ∧
    (configured.rules collisionFree).Votable abstract (core.store.hash p)
      (abstract.lock rid) := by
  have tree := tracks.valid.tree
  obtain ⟨newHeight, justify, names, safe⟩ := HotstuffCore.opinion_true favourable
  have linked := tree.linked_of_justify names
  have height := tree.height_eq collisionFree (p := p) (.inr linked)
  obtain ⟨above, lower⟩ := tracks.justify_ancestor names
  have justifyHeight := tree.height_eq collisionFree
    (tree.justify_stored names).2.1
  have lockHeight := tree.height_eq collisionFree tracks.valid.lockPlaced
  refine ⟨?_, tree.rooted collisionFree (.inr linked), core.store.hash justify,
    tree.justify_edge collisionFree names, tracks.justify_certified names,
    above, ?_, ?_⟩
  · intro earlier member
    have voted : earlier.1 ∈ core.votedHashes := by
      rw [← tracks.votes]
      exact List.mem_map_of_mem member
    have := tracks.voteHeights _ voted
    omega
  · intro same
    rw [same] at justifyHeight
    omega
  · rw [tracks.lock]
    change (headerForest collisionFree).height _ <
      (headerForest collisionFree).height _ ∨ _
    rw [lockHeight, justifyHeight]
    exact safe.imp_right fun ⟨passed, chain⟩ =>
      tree.chain_ancestor collisionFree chain

/-- A favourable opinion leads to a vote. -/
theorem Tracks.vote
    (invariant : (configured.rules collisionFree).Invariant abstract)
    (proposer : ReplicaID) (fits : core.store.height p < 2 ^ 32)
    (favourable : core.opinion p = some true)
    (sends : core.Sends ((core.castVote p proposer).update p)
      [core.store.hash p] []) :
    ∃ step : VotingRules.Step ReplicaID Hash, step.replica = rid ∧
      (configured.rules collisionFree).system.enabled abstract step ∧
      Tracks configured collisionFree
        ((configured.rules collisionFree).system.next abstract step) rid
        ((core.castVote p proposer).update p) := by
  have tree := tracks.valid.tree
  obtain ⟨newest, votable⟩ := tracks.votable favourable
  obtain ⟨newHeight, justify, names, -⟩ :=
    HotstuffCore.opinion_true favourable
  have linked := tree.linked_of_justify names
  have voted := tracks.toGrounded.castVote (.inr linked) proposer
  obtain ⟨grounded, moves⟩ := voted.update invariant p
  have lockable := moves.lockable voted invariant tracks.lock
  have covers := moves.coversProposal voted linked
  let lock := core.store.hash ((core.castVote p proposer).update p).bLock
  have vheight : ((core.castVote p proposer).update p).vheight =
      core.store.height p :=
    moves.vheight.trans (Nat.mod_eq_of_lt fits)
  refine ⟨.vote rid (core.store.hash p) lock, rfl,
    ⟨newest, votable, lockable, covers⟩,
    { grounded.next _ with
      sameId := sends.selfId.trans tracks.sameId
      sameKey := sends.secretKey.trans tracks.sameKey
      alive := moves.alive.trans tracks.alive
      votes := ?_
      lock := ?_
      voteHeights := ?_ }⟩
  · rw [sends.votedHashes, ← tracks.votes]
    exact congrArg (List.map Prod.fst) (update_self rid _ abstract.votes)
  · exact (update_self rid lock abstract.lock).trans (moves.tree.hash _).symm
  · intro hash member
    rw [sends.votedHashes] at member
    rw [vheight]
    rcases List.mem_cons.mp member with rfl | old
    · exact (tree.height_eq collisionFree (.inr linked)).le
    · exact (tracks.voteHeights hash old).trans newHeight.le

/-- Otherwise a proposal may still move the lock. -/
theorem Tracks.relock
    (invariant : (configured.rules collisionFree).Invariant abstract)
    (sends : core.Sends (core.update p) [] []) :
    ∃ step : VotingRules.Step ReplicaID Hash, step.replica = rid ∧
      (configured.rules collisionFree).system.enabled abstract step ∧
      Tracks configured collisionFree
        ((configured.rules collisionFree).system.next abstract step) rid
        (core.update p) := by
  obtain ⟨grounded, moves⟩ := tracks.toGrounded.update invariant p
  let lock := core.store.hash (core.update p).bLock
  refine ⟨.relock rid lock, rfl,
    moves.lockable tracks.toGrounded invariant tracks.lock,
    { grounded.next _ with
      sameId := sends.selfId.trans tracks.sameId
      sameKey := sends.secretKey.trans tracks.sameKey
      alive := moves.alive.trans tracks.alive
      votes := tracks.votes.trans sends.votedHashes.symm
      lock := ?_
      voteHeights := ?_ }⟩
  · exact (update_self rid lock abstract.lock).trans (moves.tree.hash _).symm
  · rw [sends.votedHashes, moves.vheight]
    exact tracks.voteHeights

/-- A processed proposal is a vote or a move of the lock. -/
theorem Tracks.proposal
    (invariant : (configured.rules collisionFree).Invariant abstract)
    (proposer : ReplicaID) (fits : Deployment.HeightsFit core) :
    ∃ step : VotingRules.Step ReplicaID Hash, step.replica = rid ∧
      (configured.rules collisionFree).system.enabled abstract step ∧
      Tracks configured collisionFree
        ((configured.rules collisionFree).system.next abstract step) rid
        (core.step (.proposal p proposer)) := by
  have sends := tracks.valid.anchored.sends_step (.proposal p proposer)
  rcases HotstuffCore.onReceiveProposal_cases tracks.valid.tree p proposer with
    ⟨favourable, result⟩ | ⟨unfavourable, result⟩
  · rw [HotstuffCore.newVotes, if_pos favourable] at sends
    rw [HotstuffCore.step, result] at sends ⊢
    obtain ⟨-, justify, names, -⟩ := HotstuffCore.opinion_true favourable
    have bound := BlockStore.WellFormed.lt_of_linked
      (tracks.valid.tree.linked_of_justify names)
    refine tracks.vote invariant proposer (fits _ ?_) favourable sends
    rw [BlockStore.block, List.getD_eq_getElem?_getD,
      List.getElem?_eq_getElem bound]
    exact List.getElem_mem bound
  · rw [HotstuffCore.newVotes, if_neg (by simp [unfavourable])] at sends
    rw [HotstuffCore.step, result] at sends ⊢
    exact tracks.relock invariant sends

end Proposal

/-! ### All events -/

theorem Refines.voted {state : SystemState}
    {abstract : VoteState ReplicaID Hash}
    (refines : Refines configured collisionFree state abstract)
    {rid : ReplicaID} {hash : Hash} (voted : hash ∈ (state rid).votedHashes) :
    ∃ lock, (hash, lock) ∈ abstract.votes rid := by
  rw [← (refines rid).votes] at voted
  obtain ⟨vote, member, rfl⟩ := List.mem_map.mp voted
  exact ⟨vote.2, member⟩

/-- One event of a replica is matched by at most one abstract step of it. -/
theorem Refines.event {state : SystemState}
    {abstract : VoteState ReplicaID Hash}
    (refines : Refines configured collisionFree state abstract)
    (invariant : (configured.rules collisionFree).Invariant abstract)
    {rid : ReplicaID} (member : rid ∈ deployment.config.ids)
    {event : HotstuffCore.Event} (enabled : (state rid).Enabled event)
    (unforged : deployment.Unforged state event)
    (fits : Deployment.HeightsFit (state rid))
    (justifies : (state rid).JustifiesAncestor collisionFree event) :
    Tracks configured collisionFree abstract rid ((state rid).step event) ∨
      ∃ step : VotingRules.Step ReplicaID Hash, step.replica = rid ∧
        (configured.rules collisionFree).system.enabled abstract step ∧
        Tracks configured collisionFree
          ((configured.rules collisionFree).system.next abstract step) rid
          ((state rid).step event) := by
  have tracks := refines rid
  have valid := tracks.valid
  have coreConfigured := tracks.core_configured member
  have sends := valid.anchored.sends_step event
  cases event with
  | receiveBlock wireBlock source =>
      have fresh := HotstuffCore.freshBlock_received enabled
      have verified := fresh.verified
      rw [tracks.sameConfig] at verified
      have certified := refines.certified verified unforged
      rw [QuorumCertificate.objHash_ofWire] at certified
      exact .inl (tracks.stutter (tracks.toGrounded.alloc fresh certified)
        sends ⟨valid.tree.extends_alloc _, rfl, rfl, rfl⟩)
  | insertBlock p =>
      obtain ⟨-, notGenesis, bound⟩ := enabled
      exact .inl (tracks.stutter
        (tracks.toGrounded.insertBlock notGenesis bound justifies) sends
        ⟨(valid.tree.insertBlock notGenesis bound).2, rfl, rfl, rfl⟩)
  | vote cert p voter =>
      have good := valid.anchored.goodVote coreConfigured enabled
      refine .inl (tracks.stutter (tracks.toGrounded.onReceiveVote good ?_)
        sends (valid.keepsLock_onReceiveVote good))
      intro correct
      rw [← good.hashEq]
      exact refines.voted (unforged correct)
  | selfVote p =>
      have good := valid.anchored.goodSelfVote coreConfigured enabled.2
      refine .inl (tracks.stutter (tracks.toGrounded.onReceiveVote good ?_)
        sends (valid.keepsLock_onReceiveVote good))
      intro _
      rw [tracks.sameId]
      exact refines.voted (valid.voted_of_votedToSelf enabled.2)
  | proposal p proposer => exact .inr (tracks.proposal invariant proposer fits)
  | doPropose body =>
      exact .inl (tracks.stutter (tracks.toGrounded.proposeBody _ body) sends
        (valid.keepsLock_proposeBody _ body))
  | doEmptyPropose body =>
      exact .inl (tracks.stutter (tracks.toGrounded.proposeBody _ body) sends
        (valid.keepsLock_proposeBody _ body))
  | garbageCollect =>
      have same := BlockStore.sameTree_runGc (state rid).store
      refine .inl (tracks.stutter (tracks.toGrounded.sameTree
        valid.garbageCollect rfl same ?_ rfl rfl
        (tracks.toGrounded.hqc_extend same.extends rfl)) sends
        ⟨same.extends, rfl, rfl, rfl⟩)
      refine BlockStore.property_runGc HotstuffBlock.selfQc ?_ _
      intro block
      unfold BlockStore.flushFromMemory
      split <;> rfl

/-- The event only changes the replica that processes it. -/
theorem Refines.of_event {state : SystemState}
    {abstract : VoteState ReplicaID Hash} {rid : ReplicaID}
    {core : HotstuffCore}
    (others : ∀ other, other ≠ rid →
      Tracks configured collisionFree abstract other (state other))
    (tracks : Tracks configured collisionFree abstract rid core) :
    Refines configured collisionFree (update state rid core) abstract := by
  intro other
  by_cases same : other = rid
  · subst same
    rwa [update_self]
  · rw [update_of_ne same]
    exact others other same

/-- Guard of the runs in which inserted blocks justify ancestors. -/
def JustifyingAncestors (collisionFree : CollisionFree) (state : SystemState)
    (label : ReplicaID × HotstuffCore.Event) : Prop :=
  (state label.1).JustifiesAncestor collisionFree label.2

/-- As long as inserted blocks justify ancestors, every run of the system is
matched by a run of chained voting. -/
theorem refines_of_reachable (configured : deployment.WellConfigured)
    (collisionFree : CollisionFree) {running : Finset ReplicaID}
    (members : running ⊆ deployment.config.ids)
    {receivable : SystemState → HotstuffBlockWire → Prop}
    {state : SystemState}
    (reachable : ((deployment.system running receivable).restrict
      (JustifyingAncestors collisionFree)).Reachable state) :
    ∃ abstract, (configured.rules collisionFree).Invariant abstract ∧
      Refines configured collisionFree state abstract := by
  obtain ⟨abstract, abstractReached, refines⟩ : ∃ abstract,
      (configured.rules collisionFree).system.Reachable abstract ∧
        Refines configured collisionFree state abstract := by
    refine reachable.simulated _ _ ?_ ?_
    · rintro state rfl
      exact ⟨_, ⟨fun _ => rfl, fun _ => rfl⟩, fun rid => .start rid⟩
    · rintro state ⟨rid, event⟩ abstract - abstractReached refines
        ⟨⟨running, enabled, unforged, -, fits⟩, justifies⟩
      have invariant := VotingRules.invariant_of_reachable abstractReached
      rcases refines.event invariant (members running) enabled unforged fits
        justifies with stutter | ⟨step, mover, allowed, tracks⟩
      · exact .inl (.of_event (fun other _ => refines other) stutter)
      · refine .inr ⟨step, allowed, .of_event (fun other different => ?_) tracks⟩
        exact (refines other).other (mover ▸ Ne.symm different)
  exact ⟨abstract, VotingRules.invariant_of_reachable abstractReached, refines⟩

end Simulation

end Hotstuff
