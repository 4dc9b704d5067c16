import Hotstuff.VotingSimulation

/-!
# Agreement with faulty proposers

Validation does not relate the justify block of a received block to its parent.
As long as the justify blocks of all inserted blocks are ancestors, correct
replicas never disagree.  A faulty replica can however make up a block that
extends one fork and carries a certificate for a block of another one; with it,
two correct replicas commit different blocks.
-/

namespace Hotstuff

section Agreement

variable [WireTypes] [Externals] {deployment : Deployment}
  {configured : deployment.WellConfigured} {collisionFree : CollisionFree}

/-- The last executed blocks of two replicas are on one chain, so their
committed sequences are comparable. -/
theorem Refines.committed_comparable {state : SystemState}
    {abstract : VoteState ReplicaID Hash}
    (refines : Refines configured collisionFree state abstract)
    (invariant : (configured.rules collisionFree).Invariant abstract)
    (first second : ReplicaID) :
    (state first).committed <+: (state second).committed ∨
      (state second).committed <+: (state first).committed := by
  have ordered (low high : ReplicaID)
      (lower : (state low).store.height (state low).bExec ≤
        (state high).store.height (state high).bExec) :
      (state low).committed <+: (state high).committed := by
    have lowTracks := refines low
    have highTracks := refines high
    have height := highTracks.valid.tree.height_eq collisionFree
      highTracks.valid.execPlaced
    have above := lowTracks.exec_ancestor invariant
      (highTracks.exec_certified invariant) (by rw [height]; exact lower)
    exact lowTracks.valid.committedPath.isPrefix above
      highTracks.valid.committedPath
  rcases Nat.le_total ((state first).store.height (state first).bExec)
    ((state second).store.height (state second).bExec) with lower | higher
  · exact .inl (ordered first second lower)
  · exact .inr (ordered second first higher)

/-- In every run in which correct replicas only insert blocks that justify an
ancestor, the committed sequences of correct replicas are comparable and
`update` never finds safety breached. -/
theorem agreement_of_justifyingAncestors (collisionFree : CollisionFree)
    (configured : deployment.WellConfigured) {state : SystemState}
    (reachable : (deployment.byzantineSystem.restrict
      (JustifyingAncestors collisionFree)).Reachable state) :
    ∀ first ∈ deployment.config.ids \ deployment.faulty,
      ∀ second ∈ deployment.config.ids \ deployment.faulty,
        ((state first).committed <+: (state second).committed ∨
          (state second).committed <+: (state first).committed) ∧
        (state first).failed ≠ some .safetyBreached := by
  obtain ⟨abstract, invariant, refines⟩ := refines_of_reachable configured
    collisionFree Finset.sdiff_subset reachable
  intro first _ second _
  refine ⟨refines.committed_comparable invariant first second, ?_⟩
  rw [(refines first).alive]
  simp

end Agreement

/-- The justify block of an inserted block is its parent. -/
def JustifyingParents [WireTypes] [Externals] (state : SystemState)
    (label : ReplicaID × HotstuffCore.Event) : Prop :=
  match label.2 with
  | .insertBlock p => ((state label.1).block p).getJustifyHash =
      ((state label.1).block p).getParentHash
  | _ => True

instance decidableJustifyingParents [WireTypes] [Externals]
    (state : SystemState) :
    (label : ReplicaID × HotstuffCore.Event) →
      Decidable (JustifyingParents state label)
  | (_, .insertBlock _) => inferInstanceAs (Decidable (_ = _))
  | (_, .receiveBlock _ _) => inferInstanceAs (Decidable True)
  | (_, .vote _ _ _) => inferInstanceAs (Decidable True)
  | (_, .selfVote _) => inferInstanceAs (Decidable True)
  | (_, .proposal _ _) => inferInstanceAs (Decidable True)
  | (_, .doPropose _) => inferInstanceAs (Decidable True)
  | (_, .doEmptyPropose _) => inferInstanceAs (Decidable True)
  | (_, .garbageCollect) => inferInstanceAs (Decidable True)

theorem JustifyingParents.ancestors [WireTypes] [Externals]
    (collisionFree : CollisionFree) (state : SystemState)
    (label : ReplicaID × HotstuffCore.Event)
    (parents : JustifyingParents state label) :
    JustifyingAncestors collisionFree state label := by
  obtain ⟨rid, event⟩ := label
  cases event with
  | insertBlock p =>
      intro _ _
      rw [show ((state rid).block p).getJustifyHash = _ from parents]
      exact .refl _
  | _ => exact trivial

/-! ### Runs of four replicas -/

namespace Symbolic

open scoped Symbolic

/-- Four replicas, the last one faulty. -/
def fourDeployment : Deployment where
  config := fourReplicas
  secretKey := fun rid => rid
  faulty := {3}

theorem four_wellConfigured : fourDeployment.WellConfigured where
  finished := ⟨replicas 4, rfl⟩
  idsSmall := by decide
  selfSigns := by
    intro rid member hash
    have small : rid < 4 := by
      revert rid
      decide
    exact (init_configured rid small).selfSigns hash
  fewFaulty := by decide

/-- A certificate signed by two correct replicas and the faulty one. -/
def certificateOn (hash : Hash) : QuorumCertificateWire where
  justify := hash
  bmp := 11
  sigs := [cryptoSign hash (0 : Nat), cryptoSign hash (1 : Nat),
    cryptoSign hash (3 : Nat)]

def blockOn (parent : Hash) (qc : QuorumCertificateWire) (body : Body) :
    HotstuffBlockWire where
  header := { parentHash := parent, qc := qc, bodyHash := hashBody body }
  body := body

/-- A block that extends the given one and certifies it. -/
def childOf (wireBlock : HotstuffBlockWire) : HotstuffBlockWire :=
  blockOn (hashHeader wireBlock.header)
    (certificateOn (hashHeader wireBlock.header)) []

def genesisQc : QuorumCertificateWire :=
  HotstuffBlock.genesisBlock.selfQc.serialize

/-- The replica receives the block as its block number `p` from the faulty
replica, stores it and processes it as a proposal. -/
def proposeTo (rid : ReplicaID) (wireBlock : HotstuffBlockWire)
    (p : BlockPtr) : List (ReplicaID × HotstuffCore.Event) :=
  [(rid, .receiveBlock wireBlock 3), (rid, .insertBlock p),
    (rid, .proposal p 3)]

/-- Propose all blocks to replicas `0` and `1`. -/
def proposeToBoth (blocks : List HotstuffBlockWire) :
    List (ReplicaID × HotstuffCore.Event) :=
  (blocks.zipIdx 1).flatMap fun (wireBlock, p) =>
    proposeTo 0 wireBlock p ++ proposeTo 1 wireBlock p

namespace Fork

def b1 := blockOn zeroHash genesisQc []
def b2 := childOf b1
def b3 := childOf b2
def b4 := childOf b3
def f1 := blockOn zeroHash genesisQc [1]
def f2 := blockOn (hashHeader f1.header) genesisQc [1]
def f3 := blockOn (hashHeader f2.header) genesisQc [1]

/-- The made up block: it extends the fork and certifies `b2`. -/
def x := blockOn (hashHeader f3.header) (certificateOn (hashHeader b2.header)) []
def y := childOf x
def z := childOf y

/-- After the common part, replica `0` sees `b4` and replica `1` a child
of `z`. -/
def attack : List (ReplicaID × HotstuffCore.Event) :=
  proposeToBoth [b1, b2, b3, f1, f2, f3, x, y, z] ++
    proposeTo 0 b4 10 ++ proposeTo 1 (childOf z) 10

/-- The same chain of four blocks at both replicas. -/
def chain : List (ReplicaID × HotstuffCore.Event) :=
  proposeToBoth [b1, b2, b3, b4]

end Fork

end Symbolic

open scoped Symbolic in
theorem agreement_on_chain :
    ∃ state, Symbolic.fourDeployment.byzantineSystem.Reachable state ∧
      (state 0).committed = [hashHeader Symbolic.Fork.b1.header] ∧
      ((state 0).committed <+: (state 1).committed ∨
        (state 1).committed <+: (state 0).committed) ∧
      (state 0).failed ≠ some .safetyBreached := by
  have reachable : (Symbolic.fourDeployment.byzantineSystem.restrict
      JustifyingParents).Reachable
      ((Symbolic.fourDeployment.byzantineSystem.restrict JustifyingParents).run
        Symbolic.fourDeployment.start Symbolic.Fork.chain) := by
    refine .run (.initial rfl) ?_
    decide +kernel
  have agreed := agreement_of_justifyingAncestors Symbolic.collisionFree
    Symbolic.four_wellConfigured
    (reachable.weaken (JustifyingParents.ancestors Symbolic.collisionFree))
    0 (by decide) 1 (by decide)
  refine ⟨_, reachable.of_restrict, ?_, agreed⟩
  decide +kernel

open scoped Symbolic in
/-- With a made up block two correct replicas commit different blocks. -/
theorem agreement_broken_by_fork :
    ∃ state, Symbolic.fourDeployment.byzantineSystem.Reachable state ∧
      (state 0).committed = [hashHeader Symbolic.Fork.b1.header] ∧
      (state 1).committed = [hashHeader Symbolic.Fork.f1.header,
        hashHeader Symbolic.Fork.f2.header,
        hashHeader Symbolic.Fork.f3.header,
        hashHeader Symbolic.Fork.x.header] ∧
      ¬ ((state 0).committed <+: (state 1).committed ∨
        (state 1).committed <+: (state 0).committed) := by
  have reachable : Symbolic.fourDeployment.byzantineSystem.Reachable
      (Symbolic.fourDeployment.byzantineSystem.run
        Symbolic.fourDeployment.start Symbolic.Fork.attack) := by
    refine .run (.initial rfl) ?_
    decide +kernel
  refine ⟨_, reachable, ?_, ?_, ?_⟩ <;> decide +kernel

end Hotstuff
