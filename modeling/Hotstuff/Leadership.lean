import Hotstuff.ProposalRound
import Mathlib.Data.Finset.Max

/-!
# A leader

A correct replica leads when its leaf is as high as any proposed block and no
correct replica has a higher certificate.  Its next block opens a round of votes.
The correct replica with the highest certificate can lead after it has proposed
enough empty blocks.

After a round that has succeeded the leader still leads, and its leaf stands on
one more own block than before.  Three of them are enough for bodies that are not
empty.
-/

namespace Hotstuff

section Leader

variable [WireTypes] [Externals]

namespace HotstuffCore

variable {core : HotstuffCore} {collisionFree : CollisionFree}

/-! ### Own blocks -/

theorem supports_of_direct {store : BlockStore} (tree : store.WellFormed)
    {selfId : ReplicaID} {depth : Nat} {p parent : BlockPtr}
    (own : (store.block p).proposer = selfId) (direct : store.Direct p)
    (edge : (store.block p).parentBlockPtr = some parent)
    (supports : store.supportsNonemptyChildProposal selfId depth parent =
      true) :
    store.supportsNonemptyChildProposal selfId (depth + 1) p = true := by
  obtain ⟨justify, names, -⟩ := (tree.linked p parent edge).justifyStored
  rw [BlockStore.supportsNonemptyChildProposal]
  simp only [own, names, edge, ne_eq, not_true_eq_false, if_false,
    Option.isNone_some, Bool.false_eq_true]
  rw [BlockStore.Direct] at direct
  rw [if_neg (not_not.mpr direct)]
  exact supports

theorem supports_weaken {store : BlockStore} (tree : store.WellFormed)
    {selfId : ReplicaID} {depth : Nat} {p : BlockPtr}
    (supports : store.supportsNonemptyChildProposal selfId (depth + 1) p =
      true) : store.supportsNonemptyChildProposal selfId depth p = true := by
  induction depth generalizing p with
  | zero => rfl
  | succ depth ih =>
      obtain ⟨own, direct, parent, edge, rest⟩ :=
        BlockStore.supports_succ supports
      exact supports_of_direct tree own direct edge (ih rest)

/-- Three own blocks stay three own blocks. -/
theorem supports_of_origin {store larger : BlockStore}
    (tree : store.WellFormed) (tree' : larger.WellFormed)
    (longer : store.Extends larger)
    (origins : ∀ p < store.heap.length,
      origin (larger.block p) = origin (store.block p))
    {selfId : ReplicaID} {depth : Nat} {p : BlockPtr}
    (placed : store.Placed p)
    (supports : store.supportsNonemptyChildProposal selfId depth p = true) :
    larger.supportsNonemptyChildProposal selfId depth p = true := by
  induction depth generalizing p with
  | zero => rfl
  | succ depth ih =>
      obtain ⟨own, direct, parent, edge, rest⟩ :=
        BlockStore.supports_succ supports
      have inside := tree.lt_of_placed placed
      obtain ⟨-, header, parsed⟩ := longer.identity p inside
      refine supports_of_direct tree'
        ((congrArg Prod.fst (origins p inside)).trans own) ?_
        ((congrArg HotstuffBlock.Links.parentBlockPtr
          (longer.links p placed)).trans edge)
        (ih (tree.parent_stored edge).2.1 rest)
      rw [BlockStore.Direct, HotstuffBlock.getJustifyHash,
        HotstuffBlock.getJustifyQc, HotstuffBlock.getParentHash, parsed, header]
      exact direct

/-- A block minted on the certified leaf is justified by its parent. -/
theorem Valid.supports_minted (valid : core.Valid collisionFree)
    (certified : core.hqc.1 = core.bLeaf)
    (stored : core.store.Stored core.bLeaf) {depth : Nat}
    (supports : core.store.supportsNonemptyChildProposal core.selfId depth
      core.bLeaf = true) (body : Body) :
    (core.mintedStore body).1.supportsNonemptyChildProposal core.selfId
      (depth + 1) core.store.heap.length = true := by
  obtain ⟨-, longer, inserted, parent, edge, parentHash⟩ :=
    valid.anchored.mintedStore body
  have tree : (core.mintedStore body).1.WellFormed := inserted.tree
  obtain ⟨parentStored, -, -⟩ := tree.parent_stored edge
  obtain rfl : parent = core.bLeaf :=
    BlockStore.WellFormed.stored_unique parentStored
      (longer.stored valid.leafPlaced stored)
      (parentHash.trans (longer.hash valid.leafPlaced).symm)
  have originEq := origin_mintedStore core body core.store.heap.length
  rw [if_pos rfl] at originEq
  have inside : core.store.heap.length <
      (core.mintedStore body).1.heap.length :=
    BlockStore.WellFormed.lt_of_linked (by
      rw [HotstuffBlock.Linked, edge]
      rfl)
  refine supports_of_direct tree (congrArg Prod.fst originEq) ?_ edge
    (supports_of_origin valid.tree tree longer ?_ valid.leafPlaced supports)
  · have notGenesis := valid.tree.nonempty.ne'
    rw [BlockStore.Direct, tree.getJustifyHash_eq notGenesis inside,
      HotstuffBlock.getParentHash, header_of_origin originEq]
    change core.hqc.2.justify = core.store.hash core.bLeaf
    rw [valid.hqcHash, certified]
  · intro p old
    rw [origin_mintedStore, if_neg old.ne]
    rfl

/-! ### Minted blocks -/

theorem Anchored.appended_minted (anchored : core.Anchored) (body : Body) :
    core.store.Appended (core.mintedStore body).1
      (core.minted body).wireBlock := by
  obtain ⟨proposer, fresh⟩ := (anchored.freshBlock_minted body).links
  exact (anchored.tree.alloc_insertBlock fresh
    (anchored.getBlock_isSome anchored.leafPlaced)
    (anchored.hqcHash ▸ anchored.getBlock_isSome anchored.hqcPlaced)).2

/-- A block above all others is the first one with its hash. -/
theorem Valid.stored_minted (valid : core.Valid collisionFree) (body : Body)
    (top : core.store.Below (core.store.height core.bLeaf)) :
    (core.mintedStore body).1.Stored core.store.heap.length := by
  have appended := valid.anchored.appended_minted body
  refine appended.stored (Option.eq_none_iff_forall_ne_some.mpr ?_)
  intro q found
  obtain ⟨-, placed, hashEq⟩ := valid.tree.stored_of_getBlock found
  have height := appended.tree.height_eq collisionFree appended.placed
  rw [appended.hash, ← hashEq, valid.tree.height_eq collisionFree placed,
    valid.height_minted body] at height
  have := top q
  omega

end HotstuffCore

/-! ### A replica proposes -/

namespace Cluster

variable {deployment : Deployment} {cluster : Cluster} {leader rid : ReplicaID}
  {event : HotstuffCore.Event}

theorem cores_own (cluster : Cluster) (leader : ReplicaID)
    (event : HotstuffCore.Event) :
    (cluster.next (.thread leader (.own event))).cores =
      Function.update cluster.cores leader
        ((cluster.cores leader).step event) := by
  rw [Cluster.next, cores_update]
  rfl

/-- Nothing arrives and nothing is taken from the queues. -/
theorem network_own (cluster : Cluster) (leader rid : ReplicaID)
    (event : HotstuffCore.Event) :
    (cluster.next (.thread leader (.own event)) rid).network =
      { (cluster rid).network with
        core := (cluster.next (.thread leader (.own event))).cores rid } := by
  by_cases same : rid = leader
  · subst same
    rw [cores, Cluster.next, Function.update_self]
    rfl
  · rw [cores, Cluster.next, Function.update_of_ne same]

theorem backlog_own (cluster : Cluster) (leader : ReplicaID)
    (event : HotstuffCore.Event) (replicas : Finset ReplicaID) :
    (cluster.next (.thread leader (.own event))).backlog replicas =
      cluster.backlog replicas := by
  refine Finset.sum_congr rfl fun rid _ => ?_
  rw [network_own]
  rfl

end Cluster

/-- The replica has the highest certificate of all correct ones, and its leaf is
so much below the bound on all proposed blocks. -/
structure Leading (deployment : Deployment) (collisionFree : CollisionFree)
    (cluster : Cluster) (leader : ReplicaID) (bound missing : Nat) : Prop where
  reachable : (deployment.cluster.restrict Cluster.Keeping).Reachable cluster
  member : leader ∈ deployment.correct
  below : deployment.ProposedBelow collisionFree cluster.cores bound
  leaf : (cluster.cores leader).store.height (cluster.cores leader).bLeaf +
    missing = bound
  highest : ∀ rid ∈ deployment.correct,
    (cluster.cores rid).store.height (cluster.cores rid).hqc.1 ≤
      (cluster.cores leader).store.height (cluster.cores leader).hqc.1

/-- A correct replica proposes. -/
def proposal (leader : ReplicaID) (body : Body) : Cluster.Label :=
  .thread leader (.own (.doPropose body))

namespace Leading

variable {deployment : Deployment} {collisionFree : CollisionFree}
  {cluster : Cluster} {leader : ReplicaID} {bound missing : Nat}
  (configured : deployment.WellConfigured)
  (leading : Leading deployment collisionFree cluster leader bound missing)

include configured leading

theorem enabled (fits : bound < 2 ^ 32) (body : Body) :
    (deployment.cluster.restrict Cluster.Keeping).enabled cluster
      (proposal leader body) := by
  have sound := Cluster.sound_of_reachable collisionFree configured
    leading.reachable.of_restrict
  obtain ⟨abstract, tracks⟩ :=
    tracks_of_reachable collisionFree configured sound.cores leader
  have alive : (cluster leader).network.core.failed = none := tracks.alive
  refine ⟨⟨?_, Deployment.correct_subset leading.member, rfl,
    ⟨(sound.processes leader).attended.failed, alive⟩, rfl, alive, trivial⟩,
    trivial⟩
  intro rid _
  exact HotstuffCore.heightsFit_of_below (deployment.below_of_proposed
    collisionFree configured sound.cores leading.below rid) fits

theorem valid : (cluster.cores leader).Valid collisionFree := by
  obtain ⟨abstract, tracks⟩ := tracks_of_reachable collisionFree configured
    (Cluster.sound_of_reachable collisionFree configured
      leading.reachable.of_restrict).cores leader
  exact tracks.valid

/-- The replica after the proposal. -/
theorem core_leader (body : Body) :
    (cluster.next (proposal leader body)).cores leader =
      { cluster.cores leader with
        store := ((cluster.cores leader).mintedStore body).1
        bLeaf := (cluster.cores leader).store.heap.length
        trace :=
          [.broadcastProposal (cluster.cores leader).store.heap.length
            ((cluster.cores leader).minted body).wireBlock,
            .getNextVmBlock (cluster.cores leader).asksNonempty
              ((cluster.cores leader).store.height
                (cluster.cores leader).bLeaf + 1)] ++
            (cluster.cores leader).trace } := by
  rw [proposal, Cluster.cores_own, Function.update_self]
  exact (leading.valid configured).anchored.proposeBody_eq _ body

omit configured leading in
theorem core_other {rid : ReplicaID} (other : rid ≠ leader) (body : Body) :
    (cluster.next (proposal leader body)).cores rid = cluster.cores rid := by
  rw [proposal, Cluster.cores_own, Function.update_of_ne other]

theorem minted_height (body : Body) :
    (headerForest collisionFree).height
        (hashHeader ((cluster.cores leader).minted body).wireBlock.header) +
      missing = bound + 1 := by
  have valid := leading.valid configured
  have appended := valid.anchored.appended_minted body
  have height := appended.tree.height_eq collisionFree appended.placed
  rw [appended.hash, valid.height_minted body] at height
  have leaf := leading.leaf
  omega

theorem later (body : Body) (rid : ReplicaID) :
    HotstuffCore.Later (cluster.cores rid)
      ((cluster.next (proposal leader body)).cores rid) := by
  rw [proposal, Cluster.cores_own]
  by_cases same : rid = leader
  · subst same
    have valid := leading.valid configured
    rw [Function.update_self]
    refine valid.anchored.later_step ⟨?_, trivial⟩
    obtain ⟨abstract, tracks⟩ := tracks_of_reachable collisionFree configured
      (Cluster.sound_of_reachable collisionFree configured
        leading.reachable.of_restrict).cores rid
    exact tracks.alive
  · rw [Function.update_of_ne same]
    exact .refl _

/-- The block is the only one that is new. -/
theorem proposedWires (body : Body) {rid : ReplicaID}
    {wireBlock : HotstuffBlockWire}
    (proposed : wireBlock ∈
      ((cluster.next (proposal leader body)).cores rid).proposedWires) :
    wireBlock ∈ (cluster.cores rid).proposedWires ∨
      rid = leader ∧
        wireBlock = ((cluster.cores leader).minted body).wireBlock := by
  by_cases same : rid = leader
  · subst same
    rw [leading.core_leader configured] at proposed
    rcases List.mem_cons.mp proposed with new | old
    · exact .inr ⟨rfl, new⟩
    · exact .inl old
  · rw [core_other same] at proposed
    exact .inl proposed

/-- The certificates stay as they are. -/
theorem hqc_height (body : Body) (rid : ReplicaID) :
    ((cluster.next (proposal leader body)).cores rid).store.height
        ((cluster.next (proposal leader body)).cores rid).hqc.1 =
      (cluster.cores rid).store.height (cluster.cores rid).hqc.1 := by
  by_cases same : rid = leader
  · subst same
    have longer := (leading.later configured body rid).longer
    rw [leading.core_leader configured] at longer ⊢
    exact longer.height (leading.valid configured).hqcPlaced
  · rw [core_other same]

omit leading in
/-- An empty block that is not above the others brings the leaf closer to the
bound. -/
theorem climb {missing : Nat}
    (leading : Leading deployment collisionFree cluster leader bound
      (missing + 1)) (fits : bound < 2 ^ 32) :
    Leading deployment collisionFree (cluster.next (proposal leader []))
      leader bound missing where
  reachable := leading.reachable.step (leading.enabled configured fits [])
  member := leading.member
  below := by
    rintro wireBlock ⟨rid, member, proposed⟩
    rcases leading.proposedWires configured [] proposed with old | ⟨-, rfl⟩
    · exact leading.below wireBlock ⟨rid, member, old⟩
    · have height := leading.minted_height configured []
      omega
  leaf := by
    rw [leading.core_leader configured]
    have height := (leading.valid configured).height_minted []
    have leaf := leading.leaf
    change ((cluster.cores leader).mintedStore []).1.height
      (cluster.cores leader).store.heap.length + missing = bound
    omega
  highest := by
    intro rid member
    rw [leading.hqc_height configured, leading.hqc_height configured]
    exact leading.highest rid member

omit leading in
/-- A block on top of all others opens a round. -/
theorem opened
    (leading : Leading deployment collisionFree cluster leader bound 0)
    (fits : bound < 2 ^ 32) (body : Body) :
    Opened deployment collisionFree (cluster.next (proposal leader body)) leader
      (cluster.cores leader).store.heap.length
      ((cluster.cores leader).minted body).wireBlock bound := by
  have start := Cluster.sound_of_reachable collisionFree configured
    leading.reachable.of_restrict
  have valid := leading.valid configured
  have appended := valid.anchored.appended_minted body
  have below := deployment.below_of_proposed collisionFree configured start.cores
    leading.below
  have hashBelow (rid : ReplicaID) {p : BlockPtr} :=
    deployment.hash_below_of_proposed collisionFree configured start.cores
      leading.below rid (p := p)
  have top := leading.minted_height configured body
  have coreEq := leading.core_leader configured body
  constructor
  case reachable =>
    exact leading.reachable.step (leading.enabled configured fits body)
  case member => exact leading.member
  case sent =>
    rw [coreEq]
    exact List.mem_cons_self
  case stored =>
    rw [coreEq]
    refine valid.stored_minted body fun p => ?_
    have low := below leader p
    have leaf := leading.leaf
    omega
  case isLeaf => rw [coreEq]
  case height => exact top
  case only =>
    intro rid member other proposed
    exact (leading.proposedWires configured body proposed).imp_left
      fun old => leading.below other ⟨rid, member, old⟩
  case pointer =>
    intro p inside isBlock
    rw [coreEq] at inside isBlock
    rw [appended.length] at inside
    by_contra other
    have old : p < (cluster.cores leader).store.heap.length :=
      Nat.lt_of_le_of_ne (Nat.le_of_lt_succ inside) other
    have low := hashBelow leader old
    rw [← (appended.longer.identity p old).1, isBlock] at low
    omega
  case unseen =>
    intro rid other
    rw [core_other other]
    exact below rid
  case unreceived =>
    intro rid event arrived p source brings
    rw [proposal, Cluster.network_own] at arrived
    have known := (NetworkEventQueue.NetEvent.Brings.known brings
      ((start.processes rid).attended.known event arrived)).2
    rw [((leading.later configured body rid).longer.identity p known).1]
    exact hashBelow rid known
  case justify =>
    rw [leading.hqc_height configured]
    change (headerForest collisionFree).height
      (cluster.cores leader).hqc.2.justify = _
    rw [valid.hqcHash, valid.tree.height_eq collisionFree valid.hqcPlaced]
  case certified =>
    intro rid member
    rw [leading.hqc_height configured, leading.hqc_height configured]
    exact leading.highest rid member

end Leading

/-! ### After a round -/

/-- The leaf of the leader is certified and stands on so many own blocks. -/
structure Presiding (deployment : Deployment) (collisionFree : CollisionFree)
    (cluster : Cluster) (leader : ReplicaID) (bound depth : Nat) : Prop extends
    Leading deployment collisionFree cluster leader bound 0 where
  certified : (cluster.cores leader).hqc.1 = (cluster.cores leader).bLeaf
  stored : (cluster.cores leader).store.Stored (cluster.cores leader).bLeaf
  supports : (cluster.cores leader).store.supportsNonemptyChildProposal
    (cluster.cores leader).selfId depth (cluster.cores leader).bLeaf = true

/-- What a round adds: all correct replicas have settled the block, and the
leader can go on. -/
structure Adds {deployment : Deployment}
    (configured : deployment.WellConfigured) (collisionFree : CollisionFree)
    (cluster last : Cluster) (leader : ReplicaID) (bound : Nat)
    (wireBlock : HotstuffBlockWire) : Prop where
  presiding : Presiding deployment collisionFree last leader (bound + 1) 0
  deeper : ∀ depth, Presiding deployment collisionFree cluster leader bound
      depth →
    Presiding deployment collisionFree last leader (bound + 1) (depth + 1)
  proposed : deployment.Proposed last.cores wireBlock
  leaf : (last.cores leader).store.hash (last.cores leader).bLeaf =
    hashHeader wireBlock.header
  settled : ∀ rid ∈ deployment.correct, (last.cores rid).Settled configured
    collisionFree (hashHeader wireBlock.header)

namespace Leading

variable {deployment : Deployment} {collisionFree : CollisionFree}
  {cluster last : Cluster} {leader : ReplicaID} {bound : Nat}
  (configured : deployment.WellConfigured)
  (leading : Leading deployment collisionFree cluster leader bound 0)
  (fits : bound < 2 ^ 32) {body : Body}
  (settlement : deployment.Settlement deployment.correct
    (cluster.next (proposal leader body)) last)

include configured leading fits settlement

theorem later_of_round (rid : ReplicaID) :
    HotstuffCore.Later (cluster.cores rid) (last.cores rid) :=
  (leading.later configured body rid).trans
    (deployment.later_of_settling collisionFree configured
      (leading.opened configured fits body).reachable settlement.1 rid)

theorem reachable_of_round :
    (deployment.cluster.restrict Cluster.Keeping).Reachable last :=
  deployment.reachable_of_settling
    (leading.opened configured fits body).reachable settlement.1

/-- The block is added unless an old message is processed. -/
theorem adds (takesNew : ∀ rid ∈ deployment.correct,
      (cluster.next (proposal leader body) rid).network.TakesNew
        (last rid).network) :
    Adds configured collisionFree cluster last leader bound
      ((cluster.cores leader).minted body).wireBlock := by
  have opened := leading.opened configured fits body
  have leads := settlement.1
  have reached := leading.reachable_of_round configured fits settlement
  have below := opened.below configured leads
  have sound := Cluster.sound_of_reachable collisionFree configured
    reached.of_restrict
  have valid := leading.valid configured
  have tree := (sound.anchored collisionFree configured leader).tree
  obtain ⟨certified, isLeaf⟩ :=
    opened.certified_at_rest configured settlement takesNew
  obtain ⟨stored, placed, hashEq⟩ := opened.leaf_stored configured leads
  have height := tree.height_eq collisionFree placed
  rw [hashEq, opened.height] at height
  have still : Leading deployment collisionFree last leader (bound + 1) 0 :=
    { reachable := reached
      member := leading.member
      below := below
      leaf := by rw [isLeaf, ← height]
      highest := by
        intro rid _
        rw [certified, ← height]
        exact deployment.below_of_proposed collisionFree configured sound.cores
          below rid _ }
  have presiding {depth : Nat}
      (supports : (last.cores leader).store.supportsNonemptyChildProposal
        (last.cores leader).selfId depth (last.cores leader).bLeaf = true) :
      Presiding deployment collisionFree last leader (bound + 1) depth :=
    { still with
      certified := by rw [certified, isLeaf]
      stored := by rwa [isLeaf]
      supports := supports }
  refine ⟨presiding rfl, ?_, ?_, ?_, ?_⟩
  · intro depth before
    -- the new block stands on one more own block than the one below it
    have later := deployment.later_of_settling collisionFree configured
      opened.reachable leads leader
    have coreEq := leading.core_leader configured body
    have appended := valid.anchored.appended_minted body
    have sameId : (last.cores leader).selfId = (cluster.cores leader).selfId :=
      (sound.sameId collisionFree configured leader).trans
        ((Cluster.sound_of_reachable collisionFree configured
          leading.reachable.of_restrict).sameId collisionFree configured
            leader).symm
    refine presiding ?_
    rw [isLeaf, sameId]
    rw [coreEq] at later
    exact HotstuffCore.supports_of_origin appended.tree tree later.longer
      later.origins appended.placed (valid.supports_minted before.certified
        before.stored before.supports body)
  · refine ⟨leader, deployment.correct_subset leading.member, ?_⟩
    rw [deployment.proposedWires_of_settling opened.reachable leads collisionFree
      configured]
    exact List.mem_filterMap.mpr ⟨_, opened.sent, rfl⟩
  · rw [isLeaf, hashEq]
  · intro rid member
    obtain ⟨p, proposer, isBlock, -, -, settled⟩ :=
      opened.processed configured settlement member
    rwa [isBlock] at settled

end Leading

end Leader

end Hotstuff
