import Hotstuff.BridgeCommits

/-!
# Coherence of the bridge and the VM

What the VM has executed beyond its last commit is known in three places: the
speculation map has the ids of the blocks that were proposed or decided, the
proposal buffer has the blocks that the VM proposed and nobody has asked for yet,
and the VM itself has the sequence of these blocks.  The three should agree
whenever the VM thread has caught up.

They do, except after a null block.  `submit_block_for_exec` clears the proposal
buffer and relies on `exec_block` to drop what the VM had proposed into it; for a
null block `exec_block` is not called.  When the speculation map was empty, nothing
has rewound the VM either, and it goes on from blocks that nobody will ever see.
-/

namespace Hotstuff

/-- What hotstuff expects of a VM: its blocks have ids, and its speculative
sequence is extended by `propose`, replaced by `exec_block`, shortened from the
front by `log_commitment`, and dropped by `rewind_to_last_commit`. -/
class SpeculativeVM [VMBase] where
  speculative : VMState → List VMBlock
  getId_isSome : ∀ block, (VMBase.getId block).isSome = true
  speculative_initClean : speculative VMBase.initClean = []
  speculative_propose : ∀ state,
    speculative (VMBase.propose state).2 =
      speculative state ++ [(VMBase.propose state).1]
  speculative_execBlock : ∀ state block,
    speculative (VMBase.execBlock state block) = [block]
  speculative_logCommitment : ∀ state committed block rest,
    speculative state = committed ++ block :: rest →
    (∀ other ∈ committed, VMBase.getId other ≠ VMBase.getId block) →
    speculative (VMBase.logCommitment state (VMBase.getId block)) = rest
  speculative_rewind : ∀ state,
    speculative (VMBase.rewindToLastCommit state) = []

export SpeculativeVM (speculative)

section Coherence

variable [VMBase]

namespace VMControlInterface

variable {interface : VMControlInterface}

/-- The VM thread has nothing to do. -/
structure Settled (interface : VMControlInterface) : Prop where
  validated : interface.blocksToValidate = []
  noRequests : interface.additionalProposalRequests = 0
  logged : interface.highestCommittedId = none

theorem Settled.existsWorkToDo (settled : interface.Settled) :
    interface.existsWorkToDo = false := by
  simp [VMControlInterface.existsWorkToDo, settled.validated,
    settled.noRequests, settled.logged]

theorem Polite.settled (polite : interface.Polite)
    (idle : interface.existsWorkToDo = false) : interface.Settled := by
  obtain ⟨validated, noRequests, logged⟩ := polite.idle idle
  exact ⟨validated, noRequests, logged⟩

end VMControlInterface

variable [SpeculativeVM]

/-- The ids of a list of blocks. -/
def blockIds (blocks : List VMBlock) : List VMBlockID :=
  blocks.map VMBase.nonemptyBlockId

/-- The ids that are not empty. -/
def nonemptyIds (ids : List VMBlockID) : List VMBlockID :=
  ids.filter Option.isSome

theorem nonemptyIds_getBlockId (value : Option VMBlock) :
    nonemptyIds [HotstuffVMBridge.getBlockId value] =
      blockIds value.toList := by
  cases value with
  | none => rfl
  | some block =>
      have nonempty : (VMBase.nonemptyBlockId block).isSome = true :=
        SpeculativeVM.getId_isSome block
      simp [nonemptyIds, blockIds, HotstuffVMBridge.getBlockId, nonempty]

namespace VMControlInterface

variable {interface : VMControlInterface}

/-- The speculative sequence once the waiting blocks are executed. -/
def executedIds (interface : VMControlInterface) : List VMBlockID :=
  blockIds (speculative (interface.blocksToValidate.foldl validateBlock
    interface.vmInstance))

/-- The committed id that the VM has still to log. -/
def unlogged (interface : VMControlInterface) : List VMBlockID :=
  interface.highestCommittedId.toList

theorem Settled.executedIds (settled : interface.Settled) :
    interface.executedIds = blockIds (speculative interface.vmInstance) := by
  rw [VMControlInterface.executedIds, settled.validated]
  rfl

/-- Logging takes the committed block from the front. -/
theorem speculative_logHighestCommitted {rest : List VMBlockID}
    (validated : interface.blocksToValidate = [])
    (executed : interface.executedIds = interface.unlogged ++ rest) :
    blockIds (speculative interface.logHighestCommitted.vmInstance) = rest := by
  have ids : blockIds (speculative interface.vmInstance) =
      interface.unlogged ++ rest := by
    rw [← executed, executedIds, validated]
    rfl
  unfold logHighestCommitted
  cases logged : interface.highestCommittedId with
  | none =>
      rw [unlogged, logged] at ids
      exact ids
  | some blockId =>
      rw [unlogged, logged] at ids
      obtain ⟨block, blocks, sequence, first, others⟩ :=
        List.map_eq_cons_iff.mp ids
      have popped := SpeculativeVM.speculative_logCommitment
        interface.vmInstance [] block blocks sequence nofun
      have named : VMBase.getId block = blockId := first
      rw [named] at popped
      dsimp only
      rw [popped]
      exact others

/-- One round of the VM thread logs what was committed and adds what it proposes
both to its sequence and to the buffer. -/
theorem executedIds_run (polite : interface.Polite) {after : VMControlInterface}
    (ran : interface.run = .ok after) {rest : List VMBlockID}
    (executed : interface.executedIds = interface.unlogged ++ rest) :
    after.unlogged = [] ∧ ∃ proposed,
      after.executedIds = rest ++ blockIds proposed ∧
      after.proposalBuffer = interface.proposalBuffer ++ proposed ∧
      (interface.additionalProposalRequests = 0 →
        proposed = [] ∧ after.additionalProposalRequests = 0) := by
  obtain ⟨sameRequests, sameMode, sameBuffer, noBlocks, nothingLogged⟩ :=
    interface.validateBlocks.logHighestCommitted_frame
  have validated : interface.validateBlocks.blocksToValidate = [] := rfl
  have logged : blockIds (speculative
      interface.validateBlocks.logHighestCommitted.vmInstance) = rest :=
    speculative_logHighestCommitted validated executed
  have politeAfter : interface.validateBlocks.logHighestCommitted.Polite := by
    intro requested
    rw [sameMode]
    exact polite (sameRequests ▸ requested)
  rcases politeAfter.makeProposal with ⟨none, result⟩ | ⟨requests, count, result⟩
  · have finished : interface.validateBlocks.logHighestCommitted = after :=
      Except.ok.inj (result.symm.trans ran)
    subst finished
    refine ⟨by rw [unlogged, nothingLogged]; rfl, [], ?_, ?_, fun _ =>
      ⟨rfl, none⟩⟩
    · rw [executedIds, noBlocks, validated]
      simpa [blockIds] using logged
    · rw [sameBuffer, List.append_nil]
      rfl
  · have finished := Except.ok.inj (result.symm.trans ran)
    subst finished
    refine ⟨by rw [unlogged, nothingLogged]; rfl, [(VMBase.propose
      interface.validateBlocks.logHighestCommitted.vmInstance).1], ?_, ?_,
      fun zero => ?_⟩
    · rw [executedIds]
      dsimp only
      rw [noBlocks, validated]
      change blockIds (speculative (VMBase.propose _).2) = _
      rw [SpeculativeVM.speculative_propose, blockIds, List.map_append]
      exact congrArg (· ++ _) logged
    · rw [sameBuffer]
      rfl
    · have requested : interface.additionalProposalRequests = requests + 1 :=
        sameRequests.symm.trans count
      omega

end VMControlInterface

/-- The committed id between `on_commit_hotstuff` and `log_commitment`. -/
def EventThread.committedIds : EventThread → List VMBlockID
  | .awaitLog committedBlockId => nonemptyIds [committedBlockId]
  | .logCommitment committedBlockId => nonemptyIds [committedBlockId]
  | _ => []

/-- The proposal that was taken from the buffer and not recorded yet. -/
def ProposerThread.taken : ProposerThread → List VMBlock
  | .record _ proposal => proposal.toList
  | _ => []

/-- The height for which a proposal is being made. -/
def ProposerThread.inProposal : ProposerThread → Option Nat
  | .request height | .await height | .record height _ => some height
  | _ => none

namespace HotstuffVMBridge

variable {kind : MutexKind} {bridge : HotstuffVMBridge}

/-- The ids in the speculation map, without the empty ones. -/
def recordedIds (bridge : HotstuffVMBridge) : List VMBlockID :=
  nonemptyIds (bridge.speculationMap.heightMap.map Prod.snd)

/-- What the VM should have executed, apart from an id that it has to log. -/
def expectedIds (bridge : HotstuffVMBridge) : List VMBlockID :=
  bridge.eventThread.committedIds ++ bridge.recordedIds ++
    blockIds bridge.proposerThread.taken ++
    blockIds bridge.vmInterface.proposalBuffer

/-- The VM has executed what it should. -/
def Matching (bridge : HotstuffVMBridge) : Prop :=
  bridge.vmInterface.executedIds =
    bridge.vmInterface.unlogged ++ bridge.expectedIds

/-- Nothing is left over that `exec_block` would have to drop, for a null block
that is not executed. -/
def NoLeftover (bridge : HotstuffVMBridge) (value : Option VMBlock) : Prop :=
  value = none →
    bridge.vmInterface.executedIds = bridge.vmInterface.unlogged ∧
      bridge.vmInterface.additionalProposalRequests = 0

/-- What holds at each place of the event thread. -/
def CoherentAt (bridge : HotstuffVMBridge) : EventThread → Prop
  | .compare _ value => bridge.Matching ∧
      (bridge.speculationMap.heightMap = [] → bridge.NoLeftover value)
  | .revert _ _ | .awaitRewind _ _ => True
  | .rewind _ _ => bridge.vmInterface.Settled
  | .addPair _ value => bridge.NoLeftover value
  | .awaitSubmit height value => bridge.NoLeftover value ∧
      bridge.speculationMap.heightMap = [(height, getBlockId value)]
  | .submit height value => bridge.NoLeftover value ∧
      bridge.speculationMap.heightMap = [(height, getBlockId value)] ∧
      bridge.vmInterface.Settled
  | _ => bridge.Matching

structure Coherent (bridge : HotstuffVMBridge) : Prop where
  inOrder : bridge.InOrder
  atHead : ∀ height, bridge.proposerThread.inProposal = some height →
    height = bridge.speculationMap.speculationHeadHotstuffHeight
  logs : ∀ committedBlockId,
    bridge.eventThread = .logCommitment committedBlockId →
    bridge.vmInterface.highestCommittedId = none
  coherent : bridge.CoherentAt bridge.eventThread

theorem coherent_init (configs : HotstuffConfigs) :
    (init configs).Coherent where
  inOrder := inOrder_init configs
  atHead := nofun
  logs := nofun
  coherent := by
    change blockIds (speculative VMBase.initClean) = []
    rw [SpeculativeVM.speculative_initClean]
    rfl

/-- Outside of `apply_block` the VM has executed what it should. -/
theorem coherentAt_outside {place : EventThread}
    (outside : place.inApplyBlock = false) :
    bridge.CoherentAt place ↔ bridge.Matching := by
  cases place <;> first | rfl | cases outside

omit [SpeculativeVM] in
theorem taken_eq_nil {place : ProposerThread}
    (outside : place.inGetProposal = false) : place.taken = [] := by
  cases place <;> first | rfl | cases outside

omit [SpeculativeVM] in
theorem inGetProposal_of_inProposal {place : ProposerThread} {height : Nat}
    (inProposal : place.inProposal = some height) :
    place.inGetProposal = true := by
  cases place <;> first | rfl | cases inProposal

/-! ### The VM thread -/

theorem Matching.run (matching : bridge.Matching)
    (polite : bridge.vmInterface.Polite) {vmInterface : VMControlInterface}
    (ran : bridge.vmInterface.run = .ok vmInterface) :
    { bridge with vmInterface := vmInterface }.Matching := by
  obtain ⟨logged, proposed, executed, buffered, -⟩ :=
    VMControlInterface.executedIds_run polite ran matching
  have ids : blockIds vmInterface.proposalBuffer =
      blockIds bridge.vmInterface.proposalBuffer ++ blockIds proposed := by
    rw [buffered, blockIds, List.map_append]
    rfl
  change vmInterface.executedIds = vmInterface.unlogged ++
    (_ ++ blockIds vmInterface.proposalBuffer)
  rw [logged, executed, ids]
  exact List.append_assoc _ _ _

theorem NoLeftover.run {value : Option VMBlock}
    (noLeftover : bridge.NoLeftover value)
    (polite : bridge.vmInterface.Polite) {vmInterface : VMControlInterface}
    (ran : bridge.vmInterface.run = .ok vmInterface) :
    { bridge with vmInterface := vmInterface }.NoLeftover value := by
  intro null
  obtain ⟨executed, noRequests⟩ := noLeftover null
  obtain ⟨logged, proposed, after, -, nothing⟩ :=
    VMControlInterface.executedIds_run polite ran
      (executed.trans (List.append_nil _).symm)
  obtain ⟨rfl, requests⟩ := nothing noRequests
  refine ⟨?_, requests⟩
  rw [after, logged]
  rfl

theorem CoherentAt.run {place : EventThread} (here : bridge.CoherentAt place)
    (polite : bridge.vmInterface.Polite)
    (busy : bridge.vmInterface.existsWorkToDo = true)
    {vmInterface : VMControlInterface}
    (ran : bridge.vmInterface.run = .ok vmInterface) :
    { bridge with vmInterface := vmInterface }.CoherentAt place := by
  have working (settled : bridge.vmInterface.Settled) : False := by
    rw [settled.existsWorkToDo] at busy
    cases busy
  cases place with
  | compare height value =>
      exact ⟨here.1.run polite ran, fun nothing =>
        (here.2 nothing).run polite ran⟩
  | revert | awaitRewind => exact trivial
  | rewind => exact (working here).elim
  | addPair => exact NoLeftover.run here polite ran
  | awaitSubmit => exact ⟨here.1.run polite ran, here.2⟩
  | submit => exact (working here.2.2).elim
  | idle | applied | awaitLog | logCommitment | failed =>
      exact Matching.run here polite ran

theorem Coherent.vmStep (coherent : bridge.Coherent)
    (allowed : bridge.Enabled kind .vm) : bridge.vmStep.Coherent := by
  have inOrder := (coherent.inOrder.next allowed nofun).1
  obtain ⟨vmInterface, ran, result, -⟩ := coherent.inOrder.sound.vmStep
  have polite := coherent.inOrder.sound.polite
  rw [show bridge.next .vm = bridge.vmStep from rfl, result] at inOrder
  rw [result]
  refine ⟨inOrder, coherent.atHead, ?_, coherent.coherent.run polite allowed.2
    ran⟩
  intro committedBlockId place
  have matching := coherent.coherent
  rw [show bridge.eventThread = .logCommitment committedBlockId from place]
    at matching
  obtain ⟨logged, -⟩ := VMControlInterface.executedIds_run polite ran matching
  exact Option.toList_eq_nil_iff.mp logged

/-- The same expectation is met. -/
theorem Matching.congr (matching : bridge.Matching) {after : HotstuffVMBridge}
    (executed : after.vmInterface.executedIds =
      bridge.vmInterface.executedIds)
    (expected : after.vmInterface.unlogged ++ after.expectedIds =
      bridge.vmInterface.unlogged ++ bridge.expectedIds) : after.Matching := by
  rw [Matching, executed, expected]
  exact matching

/-! ### The event thread -/

/-- Executing a block leaves exactly that block; a null block leaves nothing when
nothing was left over. -/
theorem executedIds_submit {value : Option VMBlock}
    (noLeftover : bridge.NoLeftover value)
    (settled : bridge.vmInterface.Settled) :
    (bridge.vmInterface.submitBlockForExec value).executedIds =
      blockIds value.toList := by
  have waiting : (bridge.vmInterface.submitBlockForExec
      value).blocksToValidate = [value] := by
    rw [VMControlInterface.submitBlockForExec, settled.validated]
    rfl
  rw [VMControlInterface.executedIds, waiting]
  cases value with
  | none =>
      obtain ⟨executed, -⟩ := noLeftover rfl
      rw [settled.executedIds, VMControlInterface.unlogged,
        settled.logged] at executed
      exact executed
  | some block =>
      change blockIds (speculative (VMBase.execBlock _ block)) = _
      rw [SpeculativeVM.speculative_execBlock]
      rfl

/-- After a rewind the VM is at what was logged last. -/
theorem NoLeftover.rewindStep (settled : bridge.vmInterface.Settled)
    (height : Nat) (value : Option VMBlock) :
    (bridge.rewindStep height value).NoLeftover value := by
  obtain ⟨validated, noRequests, logged⟩ := settled
  intro _
  refine ⟨?_, noRequests⟩
  change blockIds (speculative (bridge.vmInterface.blocksToValidate.foldl
    _ (VMBase.rewindToLastCommit _))) =
      bridge.vmInterface.highestCommittedId.toList
  rw [validated, logged]
  exact congrArg blockIds (SpeculativeVM.speculative_rewind _)

/-- The submitted block is the only one that is recorded. -/
theorem Matching.submitStep {height : Nat} {value : Option VMBlock}
    (noLeftover : bridge.NoLeftover value)
    (recorded : bridge.speculationMap.heightMap =
      [(height, getBlockId value)])
    (settled : bridge.vmInterface.Settled)
    (noneTaken : bridge.proposerThread.taken = []) :
    (bridge.submitStep height value).Matching := by
  change (bridge.vmInterface.submitBlockForExec value).executedIds =
    bridge.vmInterface.highestCommittedId.toList ++
      ([] ++ bridge.recordedIds ++ blockIds bridge.proposerThread.taken ++
        blockIds [])
  rw [executedIds_submit noLeftover settled, settled.logged, noneTaken,
    recordedIds, recorded]
  exact (nonemptyIds_getBlockId value).symm.trans (by simp [blockIds])

/-- The id that the map gives up is the one to be logged. -/
theorem Matching.pop {height : Nat} {committedBlockId : VMBlockID}
    {remaining : SpeculativeExecGadget VMBlockID BridgeThread}
    (matching : bridge.Matching)
    (place : bridge.eventThread = .applied height)
    (popped : bridge.speculationMap.onCommitHotstuff height =
      .ok (committedBlockId, remaining)) :
    Matching { bridge with
      speculationMap := remaining
      eventThread := .awaitLog committedBlockId } := by
  obtain ⟨rest, recorded, rfl⟩ :=
    SpeculativeExecGadget.onCommitHotstuff_ok popped
  refine matching.congr rfl ?_
  have split : bridge.recordedIds = nonemptyIds [committedBlockId] ++
      nonemptyIds (rest.map Prod.snd) := by
    rw [recordedIds, recorded]
    exact List.filter_append [committedBlockId] (rest.map Prod.snd)
  rw [expectedIds, expectedIds, place, split]
  rfl

/-- A logged id moves from the event thread to the VM's interface. -/
theorem Matching.logStep {committedBlockId : VMBlockID}
    (matching : bridge.Matching)
    (place : bridge.eventThread = .logCommitment committedBlockId)
    (unlogged : bridge.vmInterface.highestCommittedId = none) :
    (bridge.logStep committedBlockId).Matching := by
  refine matching.congr ?_ ?_
  · dsimp only [HotstuffVMBridge.logStep, VMControlInterface.logCommitment]
    split <;> rfl
  · rw [expectedIds, expectedIds, place]
    cases committedBlockId with
    | none => rfl
    | some bytes =>
        rw [VMControlInterface.unlogged, VMControlInterface.unlogged,
          unlogged]
        rfl

theorem Coherent.eventStep (coherent : bridge.Coherent)
    (allowed : bridge.Enabled kind .events) : bridge.eventStep.Coherent := by
  have inOrder := (coherent.inOrder.eventStep allowed).1
  have move := eventMove_of_enabled allowed
  have here := coherent.coherent
  have polite := coherent.inOrder.sound.polite
  have exclusive := coherent.inOrder.sound.discipline.exclusive
  have atHead := coherent.atHead
  -- inside `apply_block` no proposal is being made
  have noProposal (inside : bridge.eventThread.inApplyBlock = true)
      (height : Nat) :
      bridge.proposerThread.inProposal = some height → False := by
    intro inProposal
    have outside := exclusive inside
    rw [inGetProposal_of_inProposal inProposal] at outside
    cases outside
  generalize bridge.eventStep = after at inOrder move ⊢
  cases move with
  | unspeculated place nothing =>
      rw [place] at here
      exact ⟨inOrder, atHead, nofun, here.2 nothing⟩
  | agree place =>
      rw [place] at here
      refine ⟨inOrder, atHead, nofun, here.1.congr rfl ?_⟩
      rw [expectedIds, expectedIds, place]
      rfl
  | differ place => exact ⟨inOrder, atHead, nofun, trivial⟩
  | revert place =>
      refine ⟨inOrder, fun height inProposal => ?_, nofun, trivial⟩
      exact (noProposal (by rw [place]; rfl) height inProposal).elim
  | awaitRewind place idle =>
      exact ⟨inOrder, atHead, nofun, polite.settled idle⟩
  | rewind place =>
      rw [place] at here
      exact ⟨inOrder, atHead, nofun, .rewindStep here _ _⟩
  | @addPair height value place =>
      obtain ⟨nothing, recorded⟩ := coherent.inOrder.addPair_atHead place
      rw [place] at here
      refine ⟨inOrder, fun height inProposal => ?_, nofun, here, ?_⟩
      · exact (noProposal (by rw [place]; rfl) height inProposal).elim
      · dsimp only [addPairStep]
        rw [SpeculativeExecGadget.addHeightPair_head recorded, nothing]
        rfl
  | awaitSubmit place idle =>
      rw [place] at here
      exact ⟨inOrder, atHead, nofun, here.1, here.2, polite.settled idle⟩
  | @submit height value place =>
      have noneTaken := taken_eq_nil (exclusive (by rw [place]; rfl))
      rw [place] at here
      obtain ⟨noLeftover, recorded, settled⟩ := here
      exact ⟨inOrder, atHead, nofun,
        .submitStep noLeftover recorded settled noneTaken⟩
  | @commit height committedBlockId remaining place _ popped =>
      rw [place] at here
      have matching : bridge.Matching := here
      refine ⟨inOrder, ?_, nofun, matching.pop place popped⟩
      obtain ⟨rest, -, rfl⟩ :=
        SpeculativeExecGadget.onCommitHotstuff_ok popped
      exact atHead
  | commitFailure place => exact (inOrder.fits).elim
  | awaitLog place idle =>
      rw [place] at here
      refine ⟨inOrder, atHead, fun _ _ => (polite.settled idle).logged,
        Matching.congr here rfl ?_⟩
      rw [expectedIds, expectedIds, place]
      rfl
  | @log committedBlockId place =>
      have unlogged := coherent.logs committedBlockId place
      rw [place] at here
      exact ⟨inOrder, atHead, nofun, Matching.logStep here place unlogged⟩

/-! ### The other threads -/

/-- A step that changes neither what the VM has executed and has to do nor what
it should have executed. -/
theorem CoherentAt.frame {place : EventThread} (here : bridge.CoherentAt place)
    {after : HotstuffVMBridge}
    (executed : after.vmInterface.executedIds =
      bridge.vmInterface.executedIds)
    (unlogged : after.vmInterface.unlogged = bridge.vmInterface.unlogged)
    (expected : after.expectedIds = bridge.expectedIds)
    (map : after.speculationMap.heightMap = bridge.speculationMap.heightMap)
    (requests : after.vmInterface.additionalProposalRequests =
      bridge.vmInterface.additionalProposalRequests)
    (settled : bridge.vmInterface.Settled → after.vmInterface.Settled) :
    after.CoherentAt place := by
  have noLeftover {value : Option VMBlock} (before : bridge.NoLeftover value) :
      after.NoLeftover value := by
    intro null
    rw [executed, unlogged, requests]
    exact before null
  have matching (before : bridge.Matching) : after.Matching :=
    before.congr executed (by rw [unlogged, expected])
  cases place with
  | compare height value =>
      exact ⟨matching here.1, fun nothing =>
        noLeftover (here.2 (map ▸ nothing))⟩
  | revert | awaitRewind => exact trivial
  | rewind => exact settled here
  | addPair => exact noLeftover here
  | awaitSubmit => exact ⟨noLeftover here.1, map.trans here.2⟩
  | submit =>
      exact ⟨noLeftover here.1, map.trans here.2.1, settled here.2.2⟩
  | idle | applied | awaitLog | logCommitment | failed => exact matching here

/-- A step of the proposing thread: what it takes from the buffer is recorded at
the end of the map. -/
theorem Coherent.proposerStep (coherent : bridge.Coherent)
    (allowed : bridge.Enabled kind .proposer) :
    bridge.proposerStep.Coherent := by
  have inOrder := (coherent.inOrder.next allowed nofun).1
  have samePlace : bridge.proposerStep.eventThread = bridge.eventThread :=
    (records_proposer allowed).place
  have move := proposerMove_of_enabled allowed
  have here := coherent.coherent
  have atHead := coherent.atHead
  -- with the lock taken the event thread is outside of `apply_block`
  have outside (inside : bridge.proposerThread.inGetProposal = true) :
      bridge.eventThread.inApplyBlock = false := by
    by_contra applying
    rw [coherent.inOrder.sound.discipline.exclusive (by simpa using applying)]
      at inside
    cases inside
  rw [show bridge.next .proposer = bridge.proposerStep from rfl] at inOrder
  generalize bridge.proposerStep = after at inOrder samePlace move ⊢
  suffices rest : (∀ height, after.proposerThread.inProposal = some height →
      height = after.speculationMap.speculationHeadHotstuffHeight) ∧
      after.vmInterface.highestCommittedId =
        bridge.vmInterface.highestCommittedId ∧
      after.CoherentAt bridge.eventThread by
    refine ⟨inOrder, rest.1, ?_, samePlace ▸ rest.2.2⟩
    intro committedBlockId place
    rw [rest.2.1]
    exact coherent.logs committedBlockId (samePlace ▸ place)
  cases move with
  | nothing place | ask place =>
      rw [coherentAt_outside (outside (by rw [place]; rfl))] at here ⊢
      rw [place] at atHead
      refine ⟨atHead, rfl, here.congr rfl ?_⟩
      rw [expectedIds, expectedIds, place]
      rfl
  | @take height requests proposal later place buffered =>
      have inside : bridge.proposerThread.inGetProposal = true ∧
          bridge.proposerThread.taken = [] ∧
          bridge.proposerThread.inProposal = some height := by
        rcases place with ⟨place, -⟩ | place <;> rw [place] <;>
          exact ⟨rfl, rfl, rfl⟩
      obtain ⟨locked, noneTaken, proposing⟩ := inside
      rw [coherentAt_outside (outside locked)] at here ⊢
      refine ⟨?_, rfl, here.congr rfl ?_⟩
      · intro other same
        cases same
        exact atHead height proposing
      · rw [expectedIds, expectedIds, noneTaken, buffered]
        simp [ProposerThread.taken, blockIds, recordedIds,
          VMControlInterface.unlogged]
  | @record height proposal place =>
      rw [coherentAt_outside (outside (by rw [place]; rfl))] at here ⊢
      refine ⟨nofun, rfl, here.congr rfl ?_⟩
      have recorded : (bridge.recordStep height proposal).recordedIds =
          bridge.recordedIds ++ blockIds proposal.toList := by
        rw [← nonemptyIds_getBlockId]
        dsimp only [recordStep, recordedIds, SpeculativeExecGadget.unlock]
        rw [SpeculativeExecGadget.addHeightPair_head
          (atHead height (by rw [place]; rfl)), List.map_append]
        exact List.filter_append _ _
      rw [expectedIds, recorded, expectedIds, place]
      simp [ProposerThread.taken, blockIds, recordStep,
        VMControlInterface.unlogged]
  | finish place =>
      refine ⟨nofun, rfl, here.frame rfl rfl ?_ rfl rfl id⟩
      rw [expectedIds, expectedIds, place]
      rfl

theorem Coherent.makeEmptyProposal (coherent : bridge.Coherent)
    {proposalHeight : Nat}
    (allowed : bridge.Enabled kind (.makeEmptyProposal proposalHeight))
    (recorded : proposalHeight =
      bridge.speculationMap.speculationHeadHotstuffHeight) :
    (bridge.makeEmptyProposal proposalHeight).Coherent := by
  have idle := ProposerThread.eq_idle allowed.1
  have outside := (coherent.inOrder.sound.discipline.free_for_proposer
    (by rw [idle]; rfl) allowed.2).1
  have here := coherent.coherent
  rw [coherentAt_outside outside] at here
  refine ⟨(coherent.inOrder.next allowed nofun).1, nofun, coherent.logs,
    (coherentAt_outside outside).mpr (here.congr rfl ?_)⟩
  have locked : proposalHeight = (bridge.speculationMap.lock
      .proposer).speculationHeadHotstuffHeight := recorded
  have same : (bridge.makeEmptyProposal proposalHeight).recordedIds =
      bridge.recordedIds := by
    dsimp only [HotstuffVMBridge.makeEmptyProposal, recordedIds,
      SpeculativeExecGadget.unlock]
    rw [SpeculativeExecGadget.addHeightPair_head locked, List.map_append]
    exact (List.filter_append _ _).trans (List.append_nil _)
  rw [expectedIds, same, expectedIds, idle]
  rfl

theorem Coherent.getAndApplyNextProposal (coherent : bridge.Coherent)
    {proposalHeight : Nat}
    (allowed : bridge.Enabled kind (.getAndApplyNextProposal proposalHeight))
    (atHead : proposalHeight =
      bridge.speculationMap.speculationHeadHotstuffHeight) :
    (bridge.getAndApplyNextProposal proposalHeight).Coherent := by
  have idle := ProposerThread.eq_idle allowed.1
  refine ⟨(coherent.inOrder.next allowed nofun).1, ?_, coherent.logs,
    coherent.coherent.frame rfl rfl ?_ rfl rfl id⟩
  · intro height same
    cases same
    exact atHead
  · rw [expectedIds, expectedIds, idle]
    rfl

/-- A block is passed to the bridge; when it is null and nothing is speculated,
no proposal may be buffered or requested. -/
theorem Coherent.applyBlock (coherent : bridge.Coherent) {height : Nat}
    {body : Body} (allowed : bridge.Enabled kind (.applyBlock height body))
    (follows : height = bridge.speculationMap.highestCommittedHeight + 1)
    (executable : VMBase.tryParse body = none →
      bridge.speculationMap.heightMap = [] →
      bridge.vmInterface.proposalBuffer = [] ∧
        bridge.vmInterface.additionalProposalRequests = 0) :
    (bridge.applyBlock height body).Coherent := by
  have idle := EventThread.eq_idle allowed.1
  have noneTaken := taken_eq_nil
    (coherent.inOrder.sound.discipline.free_for_events (by rw [idle]; rfl)
      allowed.2).1
  have here := coherent.coherent
  rw [idle] at here
  have matching : bridge.Matching := here
  refine ⟨(coherent.inOrder.applyBlock allowed follows).1, coherent.atHead,
    nofun, matching.congr rfl ?_, ?_⟩
  · rw [expectedIds, expectedIds, idle]
    rfl
  · intro nothing null
    obtain ⟨noProposals, noRequests⟩ := executable null nothing
    refine ⟨?_, noRequests⟩
    have nothing : bridge.speculationMap.heightMap = [] := nothing
    have executed := matching
    rw [Matching, expectedIds, idle, recordedIds, nothing, noneTaken,
      noProposals] at executed
    exact executed.trans (List.append_nil _)

/-- Blocks are decided one height after the other, and proposals are made at the
head of the speculation. -/
def CallsInOrder (bridge : HotstuffVMBridge) : Action → Prop
  | .applyBlock height _ =>
      height = bridge.speculationMap.highestCommittedHeight + 1
  | .makeEmptyProposal proposalHeight =>
      proposalHeight = bridge.speculationMap.speculationHeadHotstuffHeight
  | .getAndApplyNextProposal proposalHeight =>
      proposalHeight = bridge.speculationMap.speculationHeadHotstuffHeight
  | _ => True

instance decidableCallsInOrder (bridge : HotstuffVMBridge) :
    (action : Action) → Decidable (bridge.CallsInOrder action)
  | .applyBlock _ _ => inferInstanceAs (Decidable (_ = _))
  | .makeEmptyProposal _ => inferInstanceAs (Decidable (_ = _))
  | .getAndApplyNextProposal _ => inferInstanceAs (Decidable (_ = _))
  | .events | .proposer | .vm | .putVmInProposerMode | .stopProposals =>
      inferInstanceAs (Decidable True)

/-- No null block is decided while nothing is speculated and the VM has made or
has still to make proposals. -/
def NullBlocksFit (bridge : HotstuffVMBridge) : Action → Prop
  | .applyBlock _ body =>
      (VMBase.tryParse body).isNone = true ∧
          bridge.speculationMap.heightMap = [] →
        bridge.vmInterface.proposalBuffer.isEmpty = true ∧
          bridge.vmInterface.additionalProposalRequests = 0
  | _ => True

instance decidableNullBlocksFit (bridge : HotstuffVMBridge) :
    (action : Action) → Decidable (bridge.NullBlocksFit action)
  | .applyBlock _ _ => inferInstanceAs (Decidable (_ = _ ∧ _ = _ → _ ∧ _))
  | .makeEmptyProposal _ | .getAndApplyNextProposal _ | .events | .proposer
  | .vm | .putVmInProposerMode | .stopProposals =>
      inferInstanceAs (Decidable True)

theorem Coherent.next (coherent : bridge.Coherent) {action : Action}
    (allowed : bridge.Enabled kind action)
    (calls : bridge.CallsInOrder action)
    (fit : bridge.NullBlocksFit action) : (bridge.next action).Coherent := by
  have inOrder := coherent.inOrder
  cases action with
  | applyBlock height body =>
      apply coherent.applyBlock allowed calls
      intro null nothing
      obtain ⟨noProposals, noRequests⟩ :=
        fit ⟨Option.isNone_iff_eq_none.mpr null, nothing⟩
      exact ⟨List.isEmpty_iff.mp noProposals, noRequests⟩
  | events => exact coherent.eventStep allowed
  | makeEmptyProposal => exact coherent.makeEmptyProposal allowed calls
  | getAndApplyNextProposal =>
      exact coherent.getAndApplyNextProposal allowed calls
  | proposer => exact coherent.proposerStep allowed
  | vm => exact coherent.vmStep allowed
  | putVmInProposerMode | stopProposals =>
      refine ⟨(inOrder.next allowed nofun).1, coherent.atHead, coherent.logs,
        coherent.coherent.frame rfl rfl rfl rfl rfl ?_⟩
      exact fun settled =>
        ⟨settled.validated, settled.noRequests, settled.logged⟩

/-- No call of the hotstuff threads is in progress; the block that was applied
last may still have to be committed. -/
def betweenCalls (bridge : HotstuffVMBridge) : Bool :=
  match bridge.eventThread, bridge.proposerThread with
  | .idle, .idle | .idle, .returned _ _ => true
  | .applied _, .idle | .applied _, .returned _ _ => true
  | _, _ => false

/-- When the VM has nothing to do, its speculative sequence is that of the
nonempty ids in the speculation map and of the proposal buffer. -/
def SpeculationMatches (bridge : HotstuffVMBridge) : Prop :=
  bridge.betweenCalls = true → bridge.vmInterface.existsWorkToDo = false →
    blockIds (speculative bridge.vmInterface.vmInstance) =
      nonemptyIds (bridge.speculationMap.heightMap.map Prod.snd) ++
        blockIds bridge.vmInterface.proposalBuffer

theorem Coherent.speculationMatches (coherent : bridge.Coherent) :
    bridge.SpeculationMatches := by
  intro between idle
  have settled := coherent.inOrder.sound.polite.settled idle
  have here := coherent.coherent
  -- between calls no id and no proposal is in the hands of a thread
  obtain ⟨outside, noneCommitted, noneTaken⟩ :
      bridge.eventThread.inApplyBlock = false ∧
        bridge.eventThread.committedIds = [] ∧
        bridge.proposerThread.taken = [] := by
    unfold betweenCalls at between
    split at between
    case h_5 => cases between
    all_goals
      rename_i events proposer
      rw [events, proposer]
      exact ⟨rfl, rfl, rfl⟩
  rw [coherentAt_outside outside, Matching, settled.executedIds, expectedIds,
    VMControlInterface.unlogged, settled.logged, noneCommitted,
    noneTaken] at here
  simpa [blockIds, recordedIds] using here

end HotstuffVMBridge

/-- In every run with calls in order in which no null block is decided while
nothing is speculated and proposals are buffered or requested, the VM and the
bridge agree on what was speculated. -/
theorem speculation_matches_vm {kind : MutexKind} {configs : HotstuffConfigs}
    {bridge : HotstuffVMBridge}
    (reachable : (((bridgeSystem kind configs).restrict
      HotstuffVMBridge.CallsInOrder).restrict
        HotstuffVMBridge.NullBlocksFit).Reachable bridge) :
    bridge.SpeculationMatches := by
  have coherent : bridge.Coherent := by
    refine reachable.invariant HotstuffVMBridge.Coherent ?_ ?_
    · rintro start rfl
      exact HotstuffVMBridge.coherent_init configs
    · rintro bridge action - coherent ⟨⟨allowed, calls⟩, fit⟩
      exact coherent.next allowed calls fit
  exact coherent.speculationMatches

end Coherence

/-! ### A proposer whose block commits -/

namespace Symbolic

open HotstuffVMBridge

scoped instance sequenceSpeculative : SpeculativeVM where
  speculative := SequenceState.speculative
  getId_isSome := fun _ => rfl
  speculative_initClean := rfl
  speculative_propose := fun _ => rfl
  speculative_execBlock := fun _ _ => rfl
  speculative_logCommitment := by
    intro state committed block rest sequence earlier
    change (state.speculative.dropWhile _).tail = rest
    rw [sequence, List.dropWhile_append_of_pos]
    · rw [List.dropWhile_cons_of_neg (by simp [VMBase.getId])]
      rfl
    · intro other member
      exact decide_eq_true (earlier other member)
  speculative_rewind := fun _ => rfl

/-- The first block of the VM is proposed, three more are buffered, and the
first one is decided and committed. -/
def commitFirst : List Action :=
  proposeFirst ++ List.replicate 3 .vm ++
    [.applyBlock 1 [1], .events, .events, .events, .events, .vm]

/-- An empty block is decided next. -/
def decideEmpty : List Action :=
  commitFirst ++ [.applyBlock 2 [], .events, .events, .events, .events, .vm]

/-- The bridge with calls in order. -/
def orderly : TransitionSystem HotstuffVMBridge Action :=
  (bridgeSystem .recursive defaultConfigs).restrict CallsInOrder

instance decidableOrderly (bridge : HotstuffVMBridge) (action : Action) :
    Decidable (orderly.enabled bridge action) :=
  inferInstanceAs (Decidable (bridge.Enabled .recursive action ∧
    bridge.CallsInOrder action))

end Symbolic

open scoped Symbolic in
open Symbolic HotstuffVMBridge in
theorem speculation_matches_commitFirst :
    ∃ bridge, (orderly.restrict NullBlocksFit).Reachable bridge ∧
      bridge.betweenCalls = true ∧
      bridge.vmInterface.existsWorkToDo = false ∧
      blockIds bridge.vmInterface.proposalBuffer =
        [some [2], some [3], some [4]] ∧
      bridge.SpeculationMatches := by
  have reachable : (orderly.restrict NullBlocksFit).Reachable
      ((orderly.restrict NullBlocksFit).run (.init defaultConfigs)
        commitFirst) := by
    refine .run (.initial rfl) ?_
    decide +kernel
  refine ⟨_, reachable, ?_, ?_, ?_, speculation_matches_vm reachable⟩ <;>
    decide +kernel

open scoped Symbolic in
open Symbolic HotstuffVMBridge in
/-- After the empty block the buffer is empty, and the VM still has the three
blocks that it had proposed. -/
theorem speculation_kept_after_null :
    ∃ bridge, orderly.Reachable bridge ∧ bridge.betweenCalls = true ∧
      bridge.vmInterface.existsWorkToDo = false ∧
      blockIds (speculative bridge.vmInterface.vmInstance) =
        [some [2], some [3], some [4]] ∧
      bridge.speculationMap.heightMap = [(2, none)] ∧
      blockIds bridge.vmInterface.proposalBuffer = [] := by
  have reachable : orderly.Reachable
      (orderly.run (.init defaultConfigs) decideEmpty) := by
    refine .run (.initial rfl) ?_
    decide +kernel
  refine ⟨_, reachable, ?_, ?_, ?_, ?_, ?_⟩ <;> decide +kernel

end Hotstuff
