import Hotstuff.FetchRequests
import Hotstuff.OwnProposals
import Hotstuff.Provenance

/-!
# The heights of proposed blocks

All blocks of a deployment were proposed by a replica that had stored the parent
and the justify block.  So the height of a block is a property of its hash, both
blocks that it names are below it, and a bound on the heights of the proposed
blocks is a bound for every block tree.

In every replica the lock is below the highest certificate.  A replica whose
highest certificate is not above the certificate of a new block is therefore
free to vote for it.
-/

namespace Hotstuff

section Heights

variable [WireTypes] [Externals]

/-! ### Bounds -/

namespace BlockStore

/-- No block is above the bound. -/
def Below (store : BlockStore) (bound : Nat) : Prop :=
  ∀ p, store.height p ≤ bound

variable {store after : BlockStore} {bound : Nat}

omit [Externals] in
theorem below_iff : store.Below bound ↔
    ∀ block ∈ store.heap, block.blockHeight ≤ bound := by
  constructor
  · intro below block member
    obtain ⟨p, inside, rfl⟩ := List.getElem_of_mem member
    have low := below p
    rwa [height, BlockStore.block, List.getD_eq_getElem?_getD,
      List.getElem?_eq_getElem inside] at low
  · intro low p
    rw [height, BlockStore.block, List.getD_eq_getElem?_getD]
    cases found : store.heap[p]? with
    | none => exact Nat.zero_le bound
    | some block => exact low block (List.mem_of_getElem? found)

instance decidableBelow (store : BlockStore) (bound : Nat) :
    Decidable (store.Below bound) :=
  decidable_of_iff _ below_iff.symm

theorem Appended.placed {wireBlock : HotstuffBlockWire}
    (appended : store.Appended after wireBlock) :
    after.Placed store.heap.length := by
  obtain ⟨parent, edge, -⟩ := appended.parent
  right
  rw [HotstuffBlock.Linked, edge]
  rfl

end BlockStore

namespace HotstuffCore

variable {core after : HotstuffCore} {bound : Nat}

omit [Externals] in
theorem heightsFit_of_below (below : core.store.Below bound)
    (fits : bound < 2 ^ 32) : Deployment.HeightsFit core :=
  fun block member =>
    (BlockStore.below_iff.mp below block member).trans_lt fits

/-! ### Locks -/

theorem bLock_commit (core : HotstuffCore) (commitQueue : List BlockPtr)
    (blk : BlockPtr) (qc : QuorumCertificate) :
    (core.commit commitQueue blk qc).bLock = core.bLock :=
  property_foldl_commitBlock bLock (fun _ _ => rfl) core commitQueue.reverse

theorem hqc_commit (core : HotstuffCore) (commitQueue : List BlockPtr)
    (blk : BlockPtr) (qc : QuorumCertificate) :
    (core.commit commitQueue blk qc).hqc = core.hqc :=
  congrArg Prod.snd (proposing_commit core commitQueue blk qc)

/-- The lock stays or rises to a block below the justify block of a processed
proposal, for which there is a certificate by then. -/
inductive LockMoves (core : HotstuffCore) (event : Event)
    (after : HotstuffCore) : Prop
  | stays (lock : after.bLock = core.bLock)
  | rises {p justify : BlockPtr} {proposer : ReplicaID}
      (isProposal : event = .proposal p proposer)
      (names : (core.block p).justifyBlockPtr = some justify)
      (placed : core.store.Placed after.bLock)
      (higher : core.store.height core.bLock < core.store.height after.bLock)
      (lower : core.store.height after.bLock < core.store.height justify)
      (certified : core.store.height justify ≤ core.store.height after.hqc.1)

/-- The certificate step comes before the lock is raised, to the justify block
of the certified block. -/
theorem LockMoves.of_raisedLock (tree : core.store.WellFormed)
    (lower : ∀ p justify, (core.block p).justifyBlockPtr = some justify →
      core.store.height justify < core.store.height p)
    {nblk blk2 blk1 : BlockPtr} {qc : QuorumCertificate}
    (names2 : (core.block nblk).justifyBlockPtr = some blk2)
    (names1 : (core.block blk2).justifyBlockPtr = some blk1)
    (lock : after.bLock = (core.updateHqc blk2 qc).raisedLock blk1)
    (hqc : after.hqc = (core.updateHqc blk2 qc).hqc) (proposer : ReplicaID) :
    LockMoves core (.proposal nblk proposer) after := by
  rw [raisedLock, updateHqc_store, updateHqc_bLock] at lock
  split at lock
  · rename_i higher
    refine .rises rfl names2 ?_ ?_ ?_ ?_
    · rw [lock]
      exact (tree.justify_stored names1).2.1
    · rwa [lock]
    · rw [lock]
      exact lower blk2 blk1 names1
    · rw [hqc]
      rcases updateHqc_cases core blk2 qc with
        ⟨-, _, -, result⟩ | ⟨notHigher, result⟩ <;> rw [result]
      exact notHigher
  · exact .stays lock

theorem lockMoves_update (tree : core.store.WellFormed)
    (lower : ∀ p justify, (core.block p).justifyBlockPtr = some justify →
      core.store.height justify < core.store.height p) (nblk : BlockPtr)
    (proposer : ReplicaID) :
    LockMoves core (.proposal nblk proposer) (core.update nblk) := by
  have outcome := update_result core nblk
  have raised {blk2 blk1 : BlockPtr}
      (names2 : (core.block nblk).justifyBlockPtr = some blk2)
      (names1 : (core.block blk2).justifyBlockPtr = some blk1)
      {after : HotstuffCore}
      (lock : after.bLock = (core.updateHqc blk2
        (core.block nblk).getJustifyQc).raisedLock blk1)
      (hqc : after.hqc = (core.updateHqc blk2
        (core.block nblk).getJustifyQc).hqc) :
      LockMoves core (.proposal nblk proposer) after :=
    .of_raisedLock tree lower names2 names1 lock hqc proposer
  generalize core.update nblk = after at outcome ⊢
  cases outcome with
  | skip => exact .stays rfl
  | certificate => exact .stays (updateHqc_bLock _ _ _)
  | lock names2 _ names1 | fail names2 _ names1 =>
      apply raised names2 names1 <;> rfl
  | commit names2 _ names1 =>
      exact raised names2 names1 (bLock_commit _ _ _ _) (hqc_commit _ _ _ _)

theorem lockMoves_step {collisionFree : CollisionFree}
    (valid : core.Valid collisionFree) (configured : core.Configured)
    (lower : ∀ p justify, (core.block p).justifyBlockPtr = some justify →
      core.store.height justify < core.store.height p)
    {event : Event} (enabled : core.Enabled event) :
    LockMoves core event (core.step event) := by
  have anchored := valid.anchored
  cases event with
  | receiveBlock | insertBlock | garbageCollect => exact .stays rfl
  | vote cert p voter =>
      have good := anchored.goodVote configured enabled
      exact .stays (valid.keepsLock_onReceiveVote good).bLock
  | selfVote p =>
      have good := anchored.goodSelfVote configured enabled.2
      exact .stays (valid.keepsLock_onReceiveVote good).bLock
  | doPropose body | doEmptyPropose body =>
      exact .stays (valid.keepsLock_proposeBody _ body).bLock
  | proposal p proposer =>
      rcases onReceiveProposal_cases anchored.tree p proposer with
        ⟨-, result⟩ | ⟨-, result⟩ <;> rw [HotstuffCore.step, result]
      · -- a vote changes neither the blocks nor the lock
        cases lockMoves_update (anchored.castVote (anchored.placed_of_height
          enabled.2.1) proposer).tree lower p proposer with
        | stays lock => exact .stays lock
        | rises isProposal names placed higher lower certified =>
            exact .rises isProposal names placed higher lower certified
      · exact lockMoves_update anchored.tree lower p proposer

/-- The lock is genesis or below the given height. -/
def LockBelow (core : HotstuffCore) (bound : Nat) : Prop :=
  core.bLock = 0 ∨ core.store.height core.bLock < bound

omit [Externals] in
theorem LockBelow.mono {higher : Nat} (below : core.LockBelow bound)
    (above : bound ≤ higher) : core.LockBelow higher :=
  below.imp_right fun lower => lower.trans_le above

theorem LockBelow.step {event : Event} (below : core.LockBelow bound)
    (anchored : core.Anchored) (enabled : core.Enabled event)
    (moves : LockMoves core event (core.step event))
    (low : ∀ p proposer justify, event = .proposal p proposer →
      (core.block p).justifyBlockPtr = some justify →
      core.store.height justify ≤ core.store.height (core.step event).hqc.1 →
        core.store.height justify ≤ bound) :
    (core.step event).LockBelow bound := by
  have longer := (grows_step anchored.tree enabled).2
  cases moves with
  | stays lock =>
      rw [LockBelow, lock, longer.height anchored.lockPlaced]
      exact below
  | rises isProposal names placed _ lower certified =>
      rw [LockBelow, longer.height placed]
      exact .inr (lower.trans_le (low _ _ _ isProposal names certified))

/-! ### Committed blocks and bodies -/

omit [Externals] in
theorem committed_grows {effects : List Effect}
    (traceEq : after.trace = effects ++ core.trace) :
    core.committed <+: after.committed := by
  rw [committed, committed, traceEq, List.filterMap_append, List.reverse_append]
  exact List.prefix_append _ _

/-- The body of a proposal is empty unless the VM was asked for a non-empty
one. -/
def BodyAsked (core : HotstuffCore) : Event → Prop
  | .doPropose body => body = [] ∨ core.asksNonempty = true
  | .doEmptyPropose body => body = []
  | _ => True

end HotstuffCore

namespace Deployment

variable {deployment : Deployment} {state after : SystemState}

/-! ### Proposed blocks -/

/-- No proposed block is above the bound. -/
def ProposedBelow (deployment : Deployment) (collisionFree : CollisionFree)
    (state : SystemState) (bound : Nat) : Prop :=
  ∀ wireBlock, deployment.Proposed state wireBlock →
    (headerForest collisionFree).height (hashHeader wireBlock.header) ≤ bound

section Reachable

variable (collisionFree : CollisionFree)
  (configured : deployment.WellConfigured)
  (reachable : deployment.honestProposerSystem.Reachable state)

include collisionFree configured reachable

/-- Justify blocks are below the blocks that name them. -/
theorem justify_lower (rid : ReplicaID) (p justify : BlockPtr)
    (names : ((state rid).block p).justifyBlockPtr = some justify) :
    (state rid).store.height justify < (state rid).store.height p := by
  obtain ⟨abstract, tracks⟩ :=
    tracks_of_reachable collisionFree configured reachable rid
  exact (tracks.justify_ancestor names).2

omit collisionFree configured in
/-- What every step of one replica keeps holds of the replica. -/
theorem core_invariant (rid : ReplicaID) (Invariant : HotstuffCore → Prop)
    (initial : Invariant
      (.init rid deployment.config (deployment.secretKey rid)))
    (step : ∀ state event, deployment.honestProposerSystem.Reachable state →
      deployment.honestProposerSystem.enabled state (rid, event) →
      Invariant (state rid) → Invariant ((state rid).step event)) :
    Invariant (state rid) := by
  refine reachable.invariant (fun state => Invariant (state rid)) ?_ ?_
  · rintro start rfl
    exact initial
  · rintro state ⟨other, event⟩ reached holds enabled
    change Invariant (Function.update state other _ rid)
    by_cases same : rid = other
    · subst same
      rw [Function.update_self]
      exact step state event reached enabled holds
    · rwa [Function.update_of_ne same]

theorem lockMoves_of_enabled {rid : ReplicaID} {event : HotstuffCore.Event}
    (member : rid ∈ deployment.config.ids)
    (enabled : (state rid).Enabled event) :
    HotstuffCore.LockMoves (state rid) event ((state rid).step event) := by
  obtain ⟨abstract, tracks⟩ :=
    tracks_of_reachable collisionFree configured reachable rid
  exact HotstuffCore.lockMoves_step tracks.valid
    (tracks.core_configured member)
    (justify_lower collisionFree configured reachable rid) enabled

theorem lockBelow_of_reachable (rid : ReplicaID) :
    (state rid).LockBelow ((state rid).store.height (state rid).hqc.1) := by
  refine core_invariant reachable rid (fun core =>
    core.LockBelow (core.store.height core.hqc.1)) (.inl rfl) ?_
  intro state event reached enabled below
  obtain ⟨abstract, tracks⟩ :=
    tracks_of_reachable collisionFree configured reached rid
  have anchored := tracks.valid.anchored
  have longer := (HotstuffCore.grows_step anchored.tree enabled.2.1).2
  have rises :=
    (HotstuffCore.leafMoves_step anchored.tree event).hqcRises anchored
  rw [longer.height rises.placed]
  exact (below.mono rises.higher).step anchored enabled.2.1
    (lockMoves_of_enabled collisionFree configured reached enabled.1 enabled.2.1)
    fun _ _ _ _ _ certified => certified

/-- Every block was proposed, also when its body is no longer in memory. -/
theorem header_proposed (rid : ReplicaID) {p : BlockPtr} (notGenesis : p ≠ 0)
    (bound : p < (state rid).store.heap.length) :
    ∃ wireBlock, deployment.Proposed state wireBlock ∧
      ((state rid).block p).wireBlock.header = wireBlock.header := by
  revert p
  refine reachable.invariant (fun state => ∀ {p : BlockPtr}, p ≠ 0 →
    p < (state rid).store.heap.length →
      ∃ wireBlock, deployment.Proposed state wireBlock ∧
        ((state rid).block p).wireBlock.header = wireBlock.header) ?_ ?_
  · rintro start rfl p notGenesis bound
    exact (notGenesis (Nat.lt_one_iff.mp bound)).elim
  · rintro state ⟨other, event⟩ reached known
      ⟨member, enabled, -, delivers, -⟩ p notGenesis bound
    change p < (Function.update state other _ rid).store.heap.length at bound
    change ∃ wireBlock, deployment.Proposed (Function.update state other _) _ ∧
      ((Function.update state other _ rid).block p).wireBlock.header = _
    obtain ⟨abstract, tracks⟩ :=
      tracks_of_reachable collisionFree configured reached other
    have before : SentBefore state
        (Function.update state other ((state other).step event)) :=
      .update (tracks.valid.anchored.sends_step event)
    have old {header : HotstuffBlockHeader}
        (proposed : ∃ wireBlock, deployment.Proposed state wireBlock ∧
          header = wireBlock.header) :
        ∃ wireBlock, deployment.Proposed
          (Function.update state other ((state other).step event)) wireBlock ∧
            header = wireBlock.header := by
      obtain ⟨wireBlock, proposed, same⟩ := proposed
      exact ⟨wireBlock, before.proposed proposed, same⟩
    by_cases same : rid = other
    swap
    · rw [Function.update_of_ne same] at bound ⊢
      exact old (known notGenesis bound)
    subst same
    rw [Function.update_self] at bound ⊢
    have gains := tracks.valid.anchored.gains_step enabled
    by_cases inside : p < (state rid).store.heap.length
    · rw [HotstuffCore.block, (gains.longer.identity p inside).2.1]
      exact old (known notGenesis inside)
    obtain ⟨wireBlock, new, header⟩ := gains.new p bound (Nat.not_lt.mp inside)
    refine ⟨wireBlock, ?_, header⟩
    cases event with
    | receiveBlock received source =>
        rw [List.mem_singleton.mp new]
        exact before.proposed delivers
    | doPropose body | doEmptyPropose body =>
        refine ⟨rid, member, ?_⟩
        rw [Function.update_self,
          (tracks.valid.anchored.sends_step _).proposedWires]
        exact List.mem_append_left _ new
    | _ => cases new

/-- A proposed block is in the tree of its proposer. -/
theorem exists_linked {wireBlock : HotstuffBlockWire}
    (proposed : deployment.Proposed state wireBlock) :
    ∃ rid ∈ deployment.config.ids, ∃ p, ((state rid).block p).Linked ∧
      (state rid).store.hash p = hashHeader wireBlock.header := by
  obtain ⟨rid, member, sent⟩ := proposed
  obtain ⟨abstract, tracks⟩ :=
    tracks_of_reachable collisionFree configured reachable rid
  have tree := tracks.valid.tree
  have issued :=
    (genuine_of_reachable collisionFree configured reachable).issued rid
  obtain ⟨effect, inTrace, isProposal⟩ := List.mem_filterMap.mp sent
  cases effect with
  | broadcastProposal p proposedBlock =>
      cases isProposal
      obtain ⟨linked, header⟩ := issued.proposals p _ inTrace
      refine ⟨rid, member, p, linked, ?_⟩
      rw [← header]
      exact (tree.hashed p (tree.ne_zero_of_linked linked)
        (BlockStore.WellFormed.lt_of_linked linked)).1
  | _ => cases isProposal

/-- Both blocks that a proposed block names are below it. -/
theorem names_lower {wireBlock : HotstuffBlockWire}
    (proposed : deployment.Proposed state wireBlock) {hash : Hash}
    (names : Names (hashHeader wireBlock.header) hash) :
    (headerForest collisionFree).height hash <
      (headerForest collisionFree).height (hashHeader wireBlock.header) := by
  obtain ⟨rid, -, p, linked, hashEq⟩ :=
    exists_linked collisionFree configured reachable proposed
  obtain ⟨abstract, tracks⟩ :=
    tracks_of_reachable collisionFree configured reachable rid
  have tree := tracks.valid.tree
  obtain ⟨parent, edge, proper⟩ := tree.parent_of_linked linked
  obtain ⟨justify, justifies, -⟩ := proper.justifyStored
  obtain ⟨-, parentPlaced, parentHash⟩ := tree.parent_stored edge
  obtain ⟨-, justifyPlaced, justifyHash⟩ := tree.justify_stored justifies
  rw [← hashEq] at names ⊢
  rw [tree.height_eq collisionFree (.inr linked)]
  rcases List.mem_pair.mp (tree.mem_dependencies collisionFree
    (tree.ne_zero_of_linked linked)
    (BlockStore.WellFormed.lt_of_linked linked) names) with rfl | rfl
  · rw [← parentHash, tree.height_eq collisionFree parentPlaced]
    have := proper.heightEq
    omega
  · rw [← justifyHash, tree.height_eq collisionFree justifyPlaced]
    exact justify_lower collisionFree configured reachable rid p justify
      justifies

theorem hash_below_of_proposed {bound : Nat}
    (low : deployment.ProposedBelow collisionFree state bound)
    (rid : ReplicaID) {p : BlockPtr}
    (inside : p < (state rid).store.heap.length) :
    (headerForest collisionFree).height ((state rid).store.hash p) ≤ bound := by
  obtain ⟨abstract, tracks⟩ :=
    tracks_of_reachable collisionFree configured reachable rid
  have tree := tracks.valid.tree
  by_cases genesis : p = 0
  · rw [tree.height_eq collisionFree (.inl genesis), genesis,
      tree.genesis_height]
    exact Nat.zero_le bound
  obtain ⟨wireBlock, proposed, header⟩ := header_proposed collisionFree
    configured reachable rid genesis inside
  rw [(tree.hashed p genesis inside).1]
  exact (congrArg (fun header => (headerForest collisionFree).height
    (hashHeader header)) header).trans_le (low wireBlock proposed)

theorem below_of_proposed {bound : Nat}
    (low : deployment.ProposedBelow collisionFree state bound)
    (rid : ReplicaID) : (state rid).store.Below bound := by
  intro p
  obtain ⟨abstract, tracks⟩ :=
    tracks_of_reachable collisionFree configured reachable rid
  have tree := tracks.valid.tree
  rcases Nat.eq_zero_or_pos ((state rid).store.height p) with zero | positive
  · rw [zero]
    exact Nat.zero_le bound
  have linked := tree.linked_of_height_pos positive
  rw [← tree.height_eq collisionFree (.inr linked)]
  exact hash_below_of_proposed collisionFree configured reachable low rid
    (BlockStore.WellFormed.lt_of_linked linked)

theorem proposedBelow_of_below {bound : Nat}
    (below : ∀ rid ∈ deployment.config.ids, (state rid).store.Below bound) :
    deployment.ProposedBelow collisionFree state bound := by
  intro wireBlock proposed
  obtain ⟨rid, member, p, linked, hashEq⟩ :=
    exists_linked collisionFree configured reachable proposed
  obtain ⟨abstract, tracks⟩ :=
    tracks_of_reachable collisionFree configured reachable rid
  rw [← hashEq, tracks.valid.tree.height_eq collisionFree (.inr linked)]
  exact below rid member p

end Reachable

end Deployment

end Heights

end Hotstuff
