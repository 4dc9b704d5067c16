import Hotstuff.ChainedVoting
import Hotstuff.Replica

/-!
# Systems of replicas

A deployment runs one consensus core per replica.  The network is only present
in what it may deliver: any block that passes validation and any vote whose
signature checks, in any order and any number of times, with the single
restriction that a signature of a correct replica is only seen on a hash that
this replica has voted for.  Faulty replicas are silent in the model because
everything that they could send may be delivered anyway.

Two deployments are considered.  In the first one faulty replicas may make up
blocks.  In the second one all blocks are minted by replicas that run this
code, while faulty replicas still sign what they like.
-/

namespace Hotstuff

open Function

variable [WireTypes] [Externals]

structure Deployment where
  config : ReplicaConfig
  secretKey : ReplicaID → SecretKey
  faulty : Finset ReplicaID

/-- The core of every replica. -/
abbrev SystemState := ReplicaID → HotstuffCore

namespace Deployment

/-- All replicas are added and `finish_init` is called, ids fit into the signer
bitmap, every replica signs with its configured key, and fewer than a third of
the replicas are faulty. -/
structure WellConfigured (deployment : Deployment) : Prop where
  finished : ∃ infos, ReplicaConfig.build infos = .ok deployment.config
  idsSmall : ∀ rid ∈ deployment.config.ids, rid < maxReplicas
  selfSigns : ∀ rid ∈ deployment.config.ids, ∀ hash,
    QuorumCertificate.signerValid deployment.config hash
      (rid, cryptoSign hash (deployment.secretKey rid)) = true
  fewFaulty : 3 * deployment.faulty.card < deployment.config.ids.card

def start (deployment : Deployment) : SystemState := fun rid =>
  .init rid deployment.config (deployment.secretKey rid)

/-- Every valid signature of a correct replica in the certificate was produced
by a vote of that replica. -/
def UnforgedQc (deployment : Deployment) (state : SystemState)
    (qc : QuorumCertificate) : Prop :=
  ∀ entry ∈ qc.sigs.entries,
    QuorumCertificate.signerValid deployment.config qc.objHash entry = true →
      entry.1 ∉ deployment.faulty → qc.objHash ∈ (state entry.1).votedHashes

/-- No message contains a forged signature. -/
def Unforged (deployment : Deployment) (state : SystemState) :
    HotstuffCore.Event → Prop
  | .receiveBlock wireBlock _ =>
      deployment.UnforgedQc state (.ofWire wireBlock.header.qc)
  | .vote cert _ voter =>
      voter ∉ deployment.faulty → cert.hash ∈ (state voter).votedHashes
  | _ => True

/-- Only receivable blocks arrive. -/
def Delivers (receivable : SystemState → HotstuffBlockWire → Prop)
    (state : SystemState) : HotstuffCore.Event → Prop
  | .receiveBlock wireBlock _ => receivable state wireBlock
  | _ => True

/-- `vheight` has 32 bits, so runs are considered as long as heights fit. -/
def HeightsFit (core : HotstuffCore) : Prop :=
  ∀ block ∈ core.store.heap, block.blockHeight < 2 ^ 32

/-- The given replicas process events, and the network delivers receivable
blocks. -/
def system (deployment : Deployment) (running : Finset ReplicaID)
    (receivable : SystemState → HotstuffBlockWire → Prop) :
    TransitionSystem SystemState (ReplicaID × HotstuffCore.Event) where
  initial := fun state => state = deployment.start
  enabled := fun state label =>
    label.1 ∈ running ∧ (state label.1).Enabled label.2 ∧
      deployment.Unforged state label.2 ∧
      Delivers receivable state label.2 ∧ HeightsFit (state label.1)
  next := fun state label =>
    update state label.1 ((state label.1).step label.2)

/-- Faulty replicas send what they like. -/
def byzantineSystem (deployment : Deployment) :
    TransitionSystem SystemState (ReplicaID × HotstuffCore.Event) :=
  deployment.system (deployment.config.ids \ deployment.faulty)
    fun _ _ => True

/-- Some replica has proposed the block. -/
def Proposed (deployment : Deployment) (state : SystemState)
    (wireBlock : HotstuffBlockWire) : Prop :=
  ∃ rid ∈ deployment.config.ids, wireBlock ∈ (state rid).proposedWires

/-- All replicas run the code and all blocks are proposed by it; the faulty
replicas may sign additional votes. -/
def honestProposerSystem (deployment : Deployment) :
    TransitionSystem SystemState (ReplicaID × HotstuffCore.Event) :=
  deployment.system deployment.config.ids deployment.Proposed

/-! ### Runs can be checked by evaluation -/

instance decidableUnforgedQc (deployment : Deployment) (state : SystemState)
    (qc : QuorumCertificate) : Decidable (deployment.UnforgedQc state qc) :=
  inferInstanceAs (Decidable (∀ entry ∈ qc.sigs.entries, _ → _ → _))

instance decidableUnforged (deployment : Deployment) (state : SystemState) :
    (event : HotstuffCore.Event) → Decidable (deployment.Unforged state event)
  | .receiveBlock wireBlock _ => decidableUnforgedQc deployment state
      (.ofWire wireBlock.header.qc)
  | .vote _ _ _ => inferInstanceAs (Decidable (_ → _))
  | .insertBlock _ => inferInstanceAs (Decidable True)
  | .selfVote _ => inferInstanceAs (Decidable True)
  | .proposal _ _ => inferInstanceAs (Decidable True)
  | .doPropose _ => inferInstanceAs (Decidable True)
  | .doEmptyPropose _ => inferInstanceAs (Decidable True)
  | .garbageCollect => inferInstanceAs (Decidable True)

instance decidableDelivers
    (receivable : SystemState → HotstuffBlockWire → Prop)
    [∀ state wireBlock, Decidable (receivable state wireBlock)]
    (state : SystemState) :
    (event : HotstuffCore.Event) → Decidable (Delivers receivable state event)
  | .receiveBlock wireBlock _ =>
      inferInstanceAs (Decidable (receivable state wireBlock))
  | .vote _ _ _ => inferInstanceAs (Decidable True)
  | .insertBlock _ => inferInstanceAs (Decidable True)
  | .selfVote _ => inferInstanceAs (Decidable True)
  | .proposal _ _ => inferInstanceAs (Decidable True)
  | .doPropose _ => inferInstanceAs (Decidable True)
  | .doEmptyPropose _ => inferInstanceAs (Decidable True)
  | .garbageCollect => inferInstanceAs (Decidable True)

instance decidableHeightsFit (core : HotstuffCore) :
    Decidable (HeightsFit core) :=
  inferInstanceAs (Decidable (∀ block ∈ core.store.heap, _))

instance decidableProposed (deployment : Deployment) (state : SystemState)
    (wireBlock : HotstuffBlockWire) :
    Decidable (deployment.Proposed state wireBlock) :=
  inferInstanceAs (Decidable (∃ rid ∈ deployment.config.ids, _))

instance decidableSystemEnabled (deployment : Deployment)
    (running : Finset ReplicaID)
    (receivable : SystemState → HotstuffBlockWire → Prop)
    [∀ state wireBlock, Decidable (receivable state wireBlock)]
    (state : SystemState) (label : ReplicaID × HotstuffCore.Event) :
    Decidable ((deployment.system running receivable).enabled state label) :=
  inferInstanceAs (Decidable (_ ∧ _ ∧ _ ∧ _ ∧ _))

instance decidableByzantineEnabled (deployment : Deployment)
    (state : SystemState) (label : ReplicaID × HotstuffCore.Event) :
    Decidable (deployment.byzantineSystem.enabled state label) :=
  decidableSystemEnabled deployment _ (fun _ _ => True) state label

instance decidableHonestProposerEnabled (deployment : Deployment)
    (state : SystemState) (label : ReplicaID × HotstuffCore.Event) :
    Decidable (deployment.honestProposerSystem.enabled state label) :=
  decidableSystemEnabled deployment _ deployment.Proposed state label

end Deployment

end Hotstuff
