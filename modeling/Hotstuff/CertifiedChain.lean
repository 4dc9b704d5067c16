import Hotstuff.Agreement

/-!
# Certified chains with correct proposers

When all blocks are minted by replicas that run this code, the justify block of
every block is an ancestor, because the leaf always extends the highest
certified block.  Certified blocks are then unique per height, and those above
the end of a commit, or above the bottom of any certified chain of three, descend
from it.  The blocks that a commit passes on its way down need not be certified
themselves: a certified block of the same height may exist beside them.
-/

namespace Hotstuff

section Chains

variable [WireTypes] [Externals]

/-- The justify hash of the header is below the header, on its own chain. -/
structure AncestorJustified (collisionFree : CollisionFree)
    (header : HotstuffBlockHeader) : Prop where
  rooted : (headerForest collisionFree).Rooted header.parentHash
  ancestor : (headerForest collisionFree).Ancestor header.qc.justify
    header.parentHash

variable {collisionFree : CollisionFree}

theorem AncestorJustified.proper {header : HotstuffBlockHeader}
    (justified : AncestorJustified collisionFree header) :
    (headerForest collisionFree).Ancestor header.qc.justify
        (hashHeader header) ∧
      header.qc.justify ≠ hashHeader header := by
  have edge := headerForest_parent collisionFree header
  refine ⟨justified.ancestor.tail edge, fun same => ?_⟩
  obtain ⟨level, parentLevel⟩ := justified.rooted
  have ownLevel := parentLevel.child edge
  have heights := justified.ancestor.height_le ⟨level, parentLevel⟩
  rw [same, ownLevel.height_eq, parentLevel.height_eq] at heights
  omega

namespace HotstuffCore

/-- The leaf extends the highest certified block. -/
theorem Valid.ancestorJustified_minted {core : HotstuffCore}
    (valid : core.Valid collisionFree) (body : Body) :
    AncestorJustified collisionFree (core.minted body).wireBlock.header where
  rooted := valid.tree.rooted collisionFree valid.leafPlaced
  ancestor := by
    rw [show (core.minted body).wireBlock.header.qc.justify =
      core.store.hash core.hqc.1 from valid.hqcHash]
    exact valid.leafExtends

/-- All blocks that the replica holds or has proposed justify ancestors. -/
structure HonestlyMinted (collisionFree : CollisionFree)
    (core : HotstuffCore) : Prop where
  held : ∀ p, p ≠ 0 → p < core.store.heap.length →
    AncestorJustified collisionFree (core.block p).wireBlock.header
  proposed : ∀ wireBlock ∈ core.proposedWires,
    AncestorJustified collisionFree wireBlock.header

theorem HonestlyMinted.init (selfId : ReplicaID) (config : ReplicaConfig)
    (secretKey : SecretKey) :
    (init selfId config secretKey).HonestlyMinted collisionFree where
  held := fun _ notGenesis bound =>
    (notGenesis (Nat.lt_one_iff.mp bound)).elim
  proposed := fun _ member => by cases member

variable {core : HotstuffCore} (valid : core.Valid collisionFree)
  (minted : core.HonestlyMinted collisionFree)

include valid minted

theorem HonestlyMinted.step {event : Event} (enabled : core.Enabled event)
    (received : ∀ wireBlock source, event = .receiveBlock wireBlock source →
      AncestorJustified collisionFree wireBlock.header) :
    (core.step event).HonestlyMinted collisionFree := by
  have gains := valid.anchored.gains_step enabled
  have sends := valid.anchored.sends_step event
  have fromProposals : ∀ wireBlock ∈ core.newProposals event,
      AncestorJustified collisionFree wireBlock.header := by
    intro wireBlock member
    cases event with
    | doPropose body =>
        rw [List.mem_singleton.mp member]
        exact valid.ancestorJustified_minted body
    | doEmptyPropose body =>
        rw [List.mem_singleton.mp member]
        exact valid.ancestorJustified_minted body
    | _ => cases member
  have fromEvent : ∀ wireBlock ∈ core.newBlocks event,
      AncestorJustified collisionFree wireBlock.header := by
    intro wireBlock member
    cases event with
    | receiveBlock other source =>
        rw [List.mem_singleton.mp member]
        exact received other source rfl
    | _ => exact fromProposals wireBlock member
  constructor
  · intro p notGenesis bound
    by_cases old : p < core.store.heap.length
    · rw [HotstuffCore.block, (gains.longer.identity p old).2.1]
      exact minted.held p notGenesis old
    · obtain ⟨wireBlock, member, same⟩ := gains.new p bound (Nat.not_lt.mp old)
      rw [same]
      exact fromEvent wireBlock member
  · intro wireBlock member
    rw [sends.proposedWires] at member
    rcases List.mem_append.mp member with new | old
    · exact fromProposals wireBlock new
    · exact minted.proposed wireBlock old

theorem HonestlyMinted.justifiesAncestor {event : Event}
    (enabled : core.Enabled event) :
    core.JustifiesAncestor collisionFree event := by
  cases event with
  | insertBlock p =>
      obtain ⟨-, notGenesis, bound⟩ := enabled
      intro _ _
      rw [HotstuffCore.block, valid.tree.getJustifyHash_eq notGenesis bound]
      exact (minted.held p notGenesis bound).ancestor
  | _ => exact trivial

end HotstuffCore

/-! ### Runs -/

variable {deployment : Deployment}

/-- Correct proposers only mint blocks that justify an ancestor, so all their
runs refine chained voting. -/
theorem honestlyMinted_of_reachable (collisionFree : CollisionFree)
    (configured : deployment.WellConfigured) {state : SystemState}
    (reachable : deployment.honestProposerSystem.Reachable state) :
    (deployment.honestProposerSystem.restrict
      (JustifyingAncestors collisionFree)).Reachable state ∧
    ∀ rid, (state rid).HonestlyMinted collisionFree := by
  refine reachable.invariant (fun state =>
    (deployment.honestProposerSystem.restrict
      (JustifyingAncestors collisionFree)).Reachable state ∧
    ∀ rid, (state rid).HonestlyMinted collisionFree) ?_ ?_
  · rintro state rfl
    exact ⟨.initial rfl, fun rid => .init _ _ _⟩
  · rintro state ⟨rid, event⟩ - ⟨restricted, minted⟩ allowed
    obtain ⟨-, enabled, -, delivers, -⟩ := id allowed
    obtain ⟨abstract, -, refines⟩ := refines_of_reachable configured
      collisionFree (Finset.Subset.refl _) restricted
    have valid := (refines rid).valid
    refine ⟨.step restricted
      ⟨allowed, (minted rid).justifiesAncestor valid enabled⟩, fun other => ?_⟩
    by_cases same : other = rid
    · subst same
      change (Function.update state other _ other).HonestlyMinted collisionFree
      rw [Function.update_self]
      refine (minted other).step valid enabled ?_
      rintro wireBlock source rfl
      obtain ⟨proposer, -, proposed⟩ := delivers
      exact (minted proposer).proposed wireBlock proposed
    · change (Function.update state rid _ other).HonestlyMinted collisionFree
      rw [Function.update_of_ne same]
      exact minted other

/-- A certificate on the hash that verifies and has no forged signature. -/
def Deployment.HasVerifyingQc (deployment : Deployment) (state : SystemState)
    (hash : Hash) : Prop :=
  ∃ qc : QuorumCertificate, qc.objHash = hash ∧
    qc.verify deployment.config = .ok true ∧ deployment.UnforgedQc state qc

/-- A commit of some replica ended at the block, or the block is at the bottom of
a chain of three directly justified blocks whose top is certified. -/
def Deployment.Secured {deployment : Deployment}
    (configured : deployment.WellConfigured) (collisionFree : CollisionFree)
    (state : SystemState) (block : Hash) : Prop :=
  (∃ rid ∈ deployment.config.ids, block ∈ (state rid).committedHeads) ∨
    ∃ middle top, (configured.rules collisionFree).ThreeChain block middle top ∧
      deployment.HasVerifyingQc state top

/-- With correct proposers every block justifies a proper ancestor, at most one
block per height is certified, and every certified block that is not below the
end of a commit or the bottom of a certified chain of three is that block or
descends from it.  A certified block that is not below some other committed block
descends from it, or stands beside a committed block without a certificate.
`update` never finds safety breached. -/
theorem certified_chain_safe (collisionFree : CollisionFree)
    (configured : deployment.WellConfigured) {state : SystemState}
    (reachable : deployment.honestProposerSystem.Reachable state) :
    (∀ wireBlock, deployment.Proposed state wireBlock →
      (headerForest collisionFree).Ancestor wireBlock.header.qc.justify
          (hashHeader wireBlock.header) ∧
        wireBlock.header.qc.justify ≠ hashHeader wireBlock.header) ∧
    (∀ first second, deployment.HasVerifyingQc state first →
      deployment.HasVerifyingQc state second →
      (headerForest collisionFree).height first =
        (headerForest collisionFree).height second → first = second) ∧
    (∀ block, Deployment.Secured configured collisionFree state block →
      ∀ node, deployment.HasVerifyingQc state node →
        (headerForest collisionFree).height block ≤
          (headerForest collisionFree).height node →
        (headerForest collisionFree).Ancestor block node) ∧
    (∀ rid ∈ deployment.config.ids, ∀ block ∈ (state rid).committed,
      ∀ node, deployment.HasVerifyingQc state node →
        (headerForest collisionFree).height block ≤
          (headerForest collisionFree).height node →
        (headerForest collisionFree).Ancestor block node ∨
          ∃ passed ∈ (state rid).committed,
            (headerForest collisionFree).Ancestor block passed ∧
            (headerForest collisionFree).height passed =
              (headerForest collisionFree).height node ∧
            ¬ deployment.HasVerifyingQc state passed) ∧
    ∀ rid ∈ deployment.config.ids,
      (state rid).failed ≠ some .safetyBreached := by
  obtain ⟨restricted, minted⟩ :=
    honestlyMinted_of_reachable collisionFree configured reachable
  obtain ⟨abstract, invariant, refines⟩ := refines_of_reachable configured
    collisionFree (Finset.Subset.refl _) restricted
  have certified {hash : Hash} (has : deployment.HasVerifyingQc state hash) :
      (configured.rules collisionFree).Certified abstract hash := by
    obtain ⟨qc, rfl, verified, unforged⟩ := has
    exact refines.certified verified unforged
  have unique : ∀ first second, deployment.HasVerifyingQc state first →
      deployment.HasVerifyingQc state second →
      (headerForest collisionFree).height first =
        (headerForest collisionFree).height second → first = second := by
    intro first second firstHas secondHas equal
    exact (certified firstHas).unique invariant (certified secondHas) equal
  refine ⟨?_, unique, ?_, ?_, ?_⟩
  · rintro wireBlock ⟨proposer, -, proposed⟩
    exact ((minted proposer).proposed wireBlock proposed).proper
  · rintro block (⟨rid, -, member⟩ | ⟨middle, top, chain, topHas⟩) node has high
    · exact (refines rid).head_ancestor invariant member (certified has) high
    · exact chain.safe invariant (certified topHas) (certified has) high
  · intro rid _ block member node has high
    have tracks := refines rid
    have path := tracks.valid.committedPath
    by_cases above : (state rid).store.height (state rid).bExec ≤
        (headerForest collisionFree).height node
    · have below := path.ancestor_of_mem member
      exact .inl (below.trans
        (tracks.exec_ancestor invariant (certified has) above))
    · -- the committed block at the height of the certified one
      obtain ⟨passed, passedMem, sameHeight, descends⟩ :
          ∃ passed ∈ (state rid).committed,
            (headerForest collisionFree).height passed =
              (headerForest collisionFree).height node ∧
            (headerForest collisionFree).Ancestor block passed := by
        apply path.exists_at_height member high
        rw [← path.level.height_eq,
          tracks.valid.tree.height_eq collisionFree tracks.valid.execPlaced]
        omega
      by_cases passedHas : deployment.HasVerifyingQc state passed
      · have same := unique passed node passedHas has sameHeight
        exact .inl (same ▸ descends)
      · exact .inr ⟨passed, passedMem, descends, sameHeight, passedHas⟩
  · intro rid _
    rw [(refines rid).alive]
    simp

end Chains

/-! ### A certified block beside a committed one -/

namespace Symbolic.Pipeline

open scoped Symbolic

/-- A certificate signed by the three correct replicas. -/
def correctQc (hash : Hash) : QuorumCertificateWire where
  justify := hash
  bmp := 7
  sigs := [cryptoSign hash (0 : Nat), cryptoSign hash (1 : Nat),
    cryptoSign hash (2 : Nat)]

/-- A block that extends the given one and certifies it. -/
def after (wireBlock : HotstuffBlockWire) : HotstuffBlockWire :=
  blockOn (hashHeader wireBlock.header)
    (correctQc (hashHeader wireBlock.header)) []

/-- Three blocks that replica `0` proposes without waiting for votes. -/
def a1 := blockOn zeroHash genesisQc []
def a2 := blockOn (hashHeader a1.header) genesisQc []
def a3 := blockOn (hashHeader a2.header) genesisQc []

/-- Proposed once `a1` is certified. -/
def other := after a1
def a4 := after a3
def a5 := after a4

/-- The replica receives the block of replica `0` as its block number `p`,
stores it and processes the proposal. -/
def deliver (rid : ReplicaID) (wireBlock : HotstuffBlockWire) (p : BlockPtr) :
    List (ReplicaID × HotstuffCore.Event) :=
  [(rid, .receiveBlock wireBlock 0), (rid, .insertBlock p),
    (rid, .proposal p 0)]

/-- Replica `0` gets a vote on the block, which is its block number `p`. -/
def vote (voter : ReplicaID) (wireBlock : HotstuffBlockWire) (p : BlockPtr) :
    ReplicaID × HotstuffCore.Event :=
  (0, .vote (voteOf voter (hashHeader wireBlock.header)) p voter)

/-- Replica `0` proposes and all correct replicas vote for the block. -/
def certify (wireBlock : HotstuffBlockWire) (mine yours : BlockPtr) :
    List (ReplicaID × HotstuffCore.Event) :=
  [(0, .doPropose []), (0, .proposal mine 0), (0, .selfVote mine)] ++
    deliver 1 wireBlock yours ++ deliver 2 wireBlock yours ++
    [vote 1 wireBlock mine, vote 2 wireBlock mine]

/-- Replica `0` proposes three blocks, processes them and votes for them.  When
`a1` is certified, it proposes the other block, which reaches replicas `1` and
`2` before `a2` and gets their votes and the one of the faulty replica.  Then
`a3` is certified, and committed together with `a1` and `a2`. -/
def overtaken : List (ReplicaID × HotstuffCore.Event) :=
  [(0, .doPropose []), (0, .doPropose []), (0, .doPropose []),
    (0, .proposal 1 0), (0, .proposal 2 0), (0, .proposal 3 0),
    (0, .selfVote 1), (0, .selfVote 2), (0, .selfVote 3)] ++
    deliver 1 a1 1 ++ deliver 2 a1 1 ++ [vote 1 a1 1, vote 2 a1 1] ++
    [(0, .doPropose []), (0, .proposal 4 0)] ++
    deliver 1 other 2 ++ deliver 2 other 2 ++
    [vote 1 other 4, vote 2 other 4, vote 3 other 4] ++
    deliver 1 a2 3 ++ deliver 2 a2 3 ++ deliver 1 a3 4 ++ deliver 2 a3 4 ++
    [vote 1 a3 3, vote 2 a3 3] ++ certify a4 5 5 ++ certify a5 6 6 ++
    [(0, .doPropose []), (0, .proposal 7 0)]

def final : SystemState :=
  fourDeployment.honestProposerSystem.run fourDeployment.start overtaken

theorem reachable_final :
    fourDeployment.honestProposerSystem.Reachable final := by
  refine .run (.initial rfl) ?_
  decide +kernel

theorem hasVerifyingQc_final (wire : QuorumCertificateWire)
    (verified : (QuorumCertificate.ofWire wire).verify fourReplicas =
      .ok true)
    (unforged : fourDeployment.UnforgedQc final (.ofWire wire)) :
    fourDeployment.HasVerifyingQc final wire.justify :=
  ⟨_, QuorumCertificate.objHash_ofWire _, verified, unforged⟩

theorem hasVerifyingQc_a4 :
    fourDeployment.HasVerifyingQc final (hashHeader a4.header) :=
  hasVerifyingQc_final (correctQc (hashHeader a4.header))
    (by decide +kernel) (by decide +kernel)

/-- Two correct replicas and the faulty one have signed. -/
theorem hasVerifyingQc_other :
    fourDeployment.HasVerifyingQc final (hashHeader other.header) := by
  let hash := hashHeader other.header
  let signed : QuorumCertificateWire :=
    { justify := hash
      bmp := 14
      sigs := [cryptoSign hash (1 : Nat), cryptoSign hash (2 : Nat),
        cryptoSign hash (3 : Nat)] }
  exact hasVerifyingQc_final signed (by decide +kernel) (by decide +kernel)

theorem level_block {parent : Hash} {level : Nat}
    (below : (headerForest collisionFree).Level parent level)
    (qc : QuorumCertificateWire) (body : Body) :
    (headerForest collisionFree).Level
      (hashHeader (blockOn parent qc body).header) (level + 1) :=
  below.child (headerForest_parent collisionFree _)

theorem level_a1 :
    (headerForest collisionFree).Level (hashHeader a1.header) 1 :=
  level_block .root _ _

theorem level_a2 :
    (headerForest collisionFree).Level (hashHeader a2.header) 2 :=
  level_block level_a1 _ _

theorem level_a3 :
    (headerForest collisionFree).Level (hashHeader a3.header) 3 :=
  level_block level_a2 _ _

theorem level_a4 :
    (headerForest collisionFree).Level (hashHeader a4.header) 4 :=
  level_block level_a3 _ _

theorem level_other :
    (headerForest collisionFree).Level (hashHeader other.header) 2 :=
  level_block level_a1 _ _

end Symbolic.Pipeline

open scoped Symbolic in
open Symbolic Symbolic.Pipeline in
theorem certified_chain_overtaken :
    fourDeployment.honestProposerSystem.Reachable final ∧
      (final 0).committedHeads = [hashHeader a3.header] ∧
      fourDeployment.HasVerifyingQc final (hashHeader a4.header) ∧
      (headerForest collisionFree).Ancestor (hashHeader a3.header)
        (hashHeader a4.header) := by
  have heads : (final 0).committedHeads = [hashHeader a3.header] := by
    decide +kernel
  obtain ⟨-, -, descends, -⟩ := certified_chain_safe collisionFree
    four_wellConfigured reachable_final
  refine ⟨reachable_final, heads, hasVerifyingQc_a4, ?_⟩
  refine descends _ (.inl ⟨0, by decide, by simp [heads]⟩) _
    hasVerifyingQc_a4 ?_
  rw [level_a3.height_eq, level_a4.height_eq]
  decide

open scoped Symbolic in
open Symbolic Symbolic.Pipeline in
/-- The committed block `a2` and a certified block at its height that does not
descend from it. -/
theorem certified_beside_committed :
    fourDeployment.honestProposerSystem.Reachable final ∧
      0 ∉ fourDeployment.faulty ∧
      hashHeader a2.header ∈ (final 0).committed ∧
      fourDeployment.HasVerifyingQc final (hashHeader other.header) ∧
      (headerForest collisionFree).height (hashHeader a2.header) ≤
        (headerForest collisionFree).height (hashHeader other.header) ∧
      ¬ (headerForest collisionFree).Ancestor (hashHeader a2.header)
        (hashHeader other.header) := by
  refine ⟨reachable_final, by decide, by decide +kernel,
    hasVerifyingQc_other, ?_, ?_⟩
  · rw [level_a2.height_eq, level_other.height_eq]
  · intro descends
    have same := descends.eq_of_level level_a2 level_other
    revert same
    decide +kernel

end Hotstuff
