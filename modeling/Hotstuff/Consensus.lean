import Hotstuff.BlockStore

/-!
# The consensus core

`HotstuffCore` holds the highest certificate, the lock, the last executed block
and the leaf to build on, and reacts to votes and proposals.  The functions
follow `consensus.cc` and the proposing half of `hotstuff.cc`.  Calls that leave
the core (votes, disk writes, the index, the VM) are recorded in a trace, newest
first.  A raised exception ends the run of the replica: it is recorded in
`failed` and no further event is processed.

Votes and proposals are handled by one event thread while `do_propose` runs in a
thread of the caller.  The two only share the highest certificate and the leaf,
under `proposal_mutex`, and an event touches them in a single `update_hqc`; so
treating every event as one step loses no interleaving of their effects on the
shared state.
-/

namespace Hotstuff

variable [WireTypes] [Externals]

/-- What the core does to the outside. -/
inductive Effect
  | doVote (block : BlockPtr) (cert : PartialCertificate) (target : ReplicaID)
  | saveBlock (wireBlock : HotstuffBlockWire)
  | applyBlock (block : HotstuffBlock)
  | notifyVmOfCommitment (block : HotstuffBlock)
  /-- an index transaction with the added heights and hashes, and the
  certificate on the top block -/
  | commitTxn (entries : List (Nat × Hash)) (qc : QuorumCertificateWire)
  | notifyOkToPruneBlocks (committedHeight : Nat)
  | onNewQc (hash : Hash)
  | notifyVmOfQcOnNonselfBlock (block : BlockPtr)
  | getNextVmBlock (nonemptyProposal : Bool) (hotstuffHeight : Nat)
  | broadcastProposal (block : BlockPtr) (wireBlock : HotstuffBlockWire)

/-- Votes and proposals are sent to other replicas. -/
def Effect.isSent : Effect → Bool
  | .doVote _ _ _ => true
  | .broadcastProposal _ _ => true
  | _ => false

def Effect.votedHash : Effect → Option Hash
  | .doVote _ cert _ => some cert.hash
  | _ => none

def Effect.proposedWire : Effect → Option HotstuffBlockWire
  | .broadcastProposal _ wireBlock => some wireBlock
  | _ => none

/-- The block at which a commit ended. -/
def Effect.committedHead : Effect → Option Hash
  | .commitTxn _ qc => some qc.justify
  | _ => none

def Effect.appliedHash : Effect → Option Hash
  | .applyBlock block => some block.getHash
  | _ => none

def Effect.appliedBlock : Effect → Option HotstuffBlock
  | .applyBlock block => some block
  | _ => none

def Effect.isTxn : Effect → Bool
  | .commitTxn _ _ => true
  | _ => false

/-- Exceptions and undefined behaviour that end the run of a replica. -/
inductive Failure
  | safetyBreached
  | failedToInsertMintedBlock
  | certificate (message : String)
  | nullPointer
  deriving DecidableEq

structure HotstuffCore where
  selfId : ReplicaID
  config : ReplicaConfig
  secretKey : SecretKey
  store : BlockStore
  hqc : BlockPtr × QuorumCertificateWire
  bLock : BlockPtr
  bExec : BlockPtr
  bLeaf : BlockPtr
  /-- a `uint32_t` -/
  vheight : Nat
  trace : List Effect
  failed : Option Failure

namespace HotstuffCore

/-- A replica started with `init_clean`. -/
def init (selfId : ReplicaID) (config : ReplicaConfig)
    (secretKey : SecretKey) : HotstuffCore where
  selfId := selfId
  config := config
  secretKey := secretKey
  store := .init
  hqc := (0, HotstuffBlock.genesisBlock.selfQc.serialize)
  bLock := 0
  bExec := 0
  bLeaf := 0
  vheight := 0
  trace := []
  failed := none

def block (core : HotstuffCore) (p : BlockPtr) : HotstuffBlock :=
  core.store.block p

/-- The hashes voted for, newest first. -/
def votedHashes (core : HotstuffCore) : List Hash :=
  core.trace.filterMap Effect.votedHash

/-- The proposed blocks, newest first. -/
def proposedWires (core : HotstuffCore) : List HotstuffBlockWire :=
  core.trace.filterMap Effect.proposedWire

/-- The blocks at which commits ended, the newest first: the values that
`b_exec` has taken. -/
def committedHeads (core : HotstuffCore) : List Hash :=
  core.trace.filterMap Effect.committedHead

/-- The committed blocks, oldest first. -/
def committed (core : HotstuffCore) : List Hash :=
  (core.trace.filterMap Effect.appliedHash).reverse

def emit (core : HotstuffCore) (effect : Effect) : HotstuffCore :=
  { core with trace := effect :: core.trace }

def fail (core : HotstuffCore) (failure : Failure) : HotstuffCore :=
  { core with failed := some failure }

/-! ### Certificates and locks -/

/-- `qcBlock` is the block that `qc` certifies. -/
def updateHqc (core : HotstuffCore) (qcBlock : BlockPtr)
    (qc : QuorumCertificate) : HotstuffCore :=
  if core.store.height core.hqc.1 < core.store.height qcBlock then
    let raised := { core with hqc := (qcBlock, qc.serialize), bLeaf := qcBlock }
    if (core.block qcBlock).proposer ≠ core.selfId then
      raised.emit (.notifyVmOfQcOnNonselfBlock qcBlock)
    else raised
  else core

def raiseLock (core : HotstuffCore) (blk1 : BlockPtr) : HotstuffCore :=
  if core.store.height core.bLock < core.store.height blk1 then
    { core with bLock := blk1 }
  else core

/-- `b_lock -> write_to_disk` -/
def writeLock (core : HotstuffCore) : HotstuffCore :=
  let written := BlockStore.writeToDisk (core.store.height core.bLock + 1)
    core.store core.bLock
  { core with
    store := written.1
    trace := (written.2.map .saveBlock).reverse ++ core.trace }

/-! ### Committing -/

/-- Decide one block of the commit queue and pass it to the VM. -/
def commitBlock (core : HotstuffCore) (p : BlockPtr) : HotstuffCore :=
  let decided := { core with store := core.store.modifyBlock p .markDecided }
  (decided.emit (.applyBlock (decided.block p))).emit
    (.notifyVmOfCommitment (decided.block p))

def notifyOkToPruneBlocks (core : HotstuffCore) (committedHeight : Nat) :
    HotstuffCore :=
  let keepDepth := 100
  { core.emit (.notifyOkToPruneBlocks committedHeight) with
    store := core.store.pruneBelowHeight
      (if keepDepth < committedHeight then committedHeight - keepDepth
       else 0) }

/-- Commit the queue, whose first block is the new `b_exec`. -/
def commit (core : HotstuffCore) (commitQueue : List BlockPtr)
    (blk : BlockPtr) (qc : QuorumCertificate) : HotstuffCore :=
  let entries := commitQueue.reverse.map fun p =>
    (core.store.height p, core.store.hash p)
  let applied := commitQueue.reverse.foldl commitBlock core
  let executed :=
    { applied with bExec := blk }.emit (.commitTxn entries qc.serialize)
  executed.notifyOkToPruneBlocks (executed.store.height blk)

/-- The end of `update`: commit when the three blocks are a chain of direct
parents. -/
def updateExec (core : HotstuffCore) (blk2 blk1 : BlockPtr) : HotstuffCore :=
  match (core.block blk1).justifyBlockPtr with
  | none => core
  | some blk =>
      if (core.block blk).decided then core
      else if (core.block blk2).parentBlockPtr ≠ some blk1 ∨
          (core.block blk1).parentBlockPtr ≠ some blk then core
      else
        match core.store.walk (core.store.height core.bExec)
            (core.store.height blk) blk with
        | none => core.fail .nullPointer
        | some (commitQueue, last) =>
            if last ≠ core.bExec then core.fail .safetyBreached
            else core.commit commitQueue blk (core.block blk1).getJustifyQc

/-- The middle of `update`: move the lock and write it to disk. -/
def updateLock (core : HotstuffCore) (blk2 : BlockPtr) : HotstuffCore :=
  match (core.block blk2).justifyBlockPtr with
  | none => core
  | some blk1 =>
      if (core.block blk1).decided then core
      else ((core.raiseLock blk1).writeLock).updateExec blk2 blk1

def update (core : HotstuffCore) (nblk : BlockPtr) : HotstuffCore :=
  match (core.block nblk).justifyBlockPtr with
  | none => core
  | some blk2 =>
      if (core.block blk2).decided then core
      else (core.updateHqc blk2 (core.block nblk).getJustifyQc).updateLock blk2

/-! ### Votes and proposals -/

def onReceiveVote (core : HotstuffCore) (partialCert : PartialCertificate)
    (certifiedBlock : BlockPtr) (voterid : ReplicaID) : HotstuffCore :=
  let selfQc := (core.block certifiedBlock).selfQc
  match selfQc.addPartialCertificate voterid partialCert with
  | .error message => core.fail (.certificate message)
  | .ok extended =>
      let voted :=
        { core with
          store := core.store.modifyBlock certifiedBlock
            (.withSelfQc extended) }
      if extended.hasQuorum core.config && !selfQc.hasQuorum core.config then
        (voted.updateHqc certifiedBlock extended).emit
          (.onNewQc (voted.block certifiedBlock).getHash)
      else voted

/-- The vote rule; without result when a null pointer is dereferenced. -/
def opinion (core : HotstuffCore) (bnew : BlockPtr) : Option Bool :=
  if core.vheight < core.store.height bnew then
    match (core.block bnew).justifyBlockPtr with
    | none => none
    | some justifyBlock =>
        if core.store.height core.bLock < core.store.height justifyBlock then
          some true
        else
          (core.store.walk (core.store.height core.bLock)
            (core.store.height bnew) bnew).map fun (_, last) =>
              decide (last = core.bLock)
  else some false

def doVote (core : HotstuffCore) (block : BlockPtr) (proposer : ReplicaID) :
    HotstuffCore :=
  core.emit (.doVote block
    (PartialCertificate.sign (core.block block).getHash core.secretKey)
    proposer)

def onReceiveProposal (core : HotstuffCore) (bnew : BlockPtr)
    (proposer : ReplicaID) : HotstuffCore :=
  match core.opinion bnew with
  | none => core.fail .nullPointer
  | some true =>
      ({ core with vheight := core.store.height bnew % 2 ^ 32 }.doVote
        bnew proposer).update bnew
  | some false => core.update bnew

/-! ### Proposing -/

/-- The common part of `do_propose` and `do_empty_propose`: ask for a body,
mint a block on the leaf and broadcast it. -/
def proposeBody (core : HotstuffCore) (nonemptyProposal : Bool) (body : Body) :
    HotstuffCore :=
  let asked := core.emit (.getNextVmBlock nonemptyProposal
    (core.store.height core.bLeaf + 1))
  let minted := HotstuffBlock.mintBlock body core.hqc.2
    (core.block core.bLeaf).getHash core.selfId
  let allocated := core.store.alloc minted
  let inserted := allocated.1.insertBlock allocated.2
  if inserted.2.any then
    { asked with store := inserted.1 }.fail .failedToInsertMintedBlock
  else
    { asked with store := inserted.1, bLeaf := allocated.2 }.emit
      (.broadcastProposal allocated.2 minted.wireBlock)

/-- `body` is what `get_next_vm_block` answers. -/
def doPropose (core : HotstuffCore) (body : Body) : HotstuffCore :=
  core.proposeBody
    (core.store.supportsNonemptyChildProposal core.selfId 3 core.bLeaf) body

def doEmptyPropose (core : HotstuffCore) (body : Body) : HotstuffCore :=
  core.proposeBody false body

/-! ### Events -/

/-- What can happen at a replica. -/
inductive Event
  /-- a block arrives in a proposal or in answer to a fetch request -/
  | receiveBlock (wireBlock : HotstuffBlockWire) (source : ReplicaID)
  /-- the network queue hands a received block to the block store -/
  | insertBlock (block : BlockPtr)
  /-- a vote from the network -/
  | vote (cert : PartialCertificate) (block : BlockPtr) (voter : ReplicaID)
  /-- a vote that the replica sent to itself -/
  | selfVote (block : BlockPtr)
  | proposal (block : BlockPtr) (proposer : ReplicaID)
  | doPropose (body : Body)
  | doEmptyPropose (body : Body)
  | garbageCollect

/-- The events of the proposing thread. -/
def Event.isProposal : Event → Bool
  | .doPropose _ => true
  | .doEmptyPropose _ => true
  | _ => false

/-- The replica has sent itself a vote on the block. -/
def votedToSelf (core : HotstuffCore) (p : BlockPtr) : Bool :=
  core.trace.any fun effect =>
    match effect with
    | .doVote block _ target => block == p && target == core.selfId
    | _ => false

/-- The checks that an event passes before it reaches the core: senders are
configured, received blocks and votes are validated, and a voted or proposed
block is in the block tree. -/
def Enabled (core : HotstuffCore) (event : Event) : Prop :=
  core.failed = none ∧
  match event with
  | .receiveBlock wireBlock source =>
      core.config.isValidReplica source = true ∧
        ((HotstuffBlock.receiveBlock wireBlock source).validateHotstuff
          core.config).1.toOption = some true
  | .insertBlock p => p ≠ 0 ∧ p < core.store.heap.length
  | .vote cert p voter =>
      core.store.getBlock cert.hash = some p ∧
        (core.config.getInfo voter).toOption.any (cert.validate ·) = true
  | .selfVote p => core.votedToSelf p = true
  | .proposal p proposer =>
      core.store.height p ≠ 0 ∧ core.config.isValidReplica proposer = true
  | .doPropose _ => True
  | .doEmptyPropose _ => True
  | .garbageCollect => True

instance decidableEnabled (core : HotstuffCore) :
    (event : Event) → Decidable (core.Enabled event)
  | .receiveBlock _ _ => inferInstanceAs (Decidable (_ ∧ _ ∧ _))
  | .insertBlock _ => inferInstanceAs (Decidable (_ ∧ _ ∧ _))
  | .vote _ _ _ => inferInstanceAs (Decidable (_ ∧ _ ∧ _))
  | .selfVote _ => inferInstanceAs (Decidable (_ ∧ _))
  | .proposal _ _ => inferInstanceAs (Decidable (_ ∧ _ ∧ _))
  | .doPropose _ => inferInstanceAs (Decidable (_ ∧ True))
  | .doEmptyPropose _ => inferInstanceAs (Decidable (_ ∧ True))
  | .garbageCollect => inferInstanceAs (Decidable (_ ∧ True))

def step (core : HotstuffCore) (event : Event) : HotstuffCore :=
  match event with
  | .receiveBlock wireBlock source =>
      { core with
        store := (core.store.alloc
          ((HotstuffBlock.receiveBlock wireBlock source).validateHotstuff
            core.config).2).1 }
  | .insertBlock p => { core with store := (core.store.insertBlock p).1 }
  | .vote cert p voter => core.onReceiveVote cert p voter
  | .selfVote p =>
      core.onReceiveVote
        (PartialCertificate.sign (core.block p).getHash core.secretKey)
        p core.selfId
  | .proposal p proposer => core.onReceiveProposal p proposer
  | .doPropose body => core.doPropose body
  | .doEmptyPropose body => core.doEmptyPropose body
  | .garbageCollect => { core with store := core.store.runGc }

end HotstuffCore

end Hotstuff
