import Hotstuff.SpeculativeExecGadget
import Hotstuff.TransitionSystem
import Hotstuff.VMControlInterface

/-!
# The bridge between hotstuff and the VM

Three threads meet in `HotstuffVMBridge`.  The event thread decides blocks: for
each one it calls `apply_block` and then `notify_vm_of_commitment`.  The thread
that proposes calls `make_empty_proposal` and `get_and_apply_next_proposal`, one
call at a time because `do_propose` holds `proposal_mutex`.  The VM thread runs
the loop of the VM interface.

A thread is described by its place in the call it is executing.  A step runs
from one place to the next: between two steps other threads may run, within a
step nothing they could see happens.  Places where a thread waits for another
(a lock, or `wait_for_async_task`) have a guard.

The mutex of the speculation map is a parameter of the transition system, to
tell the behaviour of `std::mutex` from that of a recursive mutex.
-/

namespace Hotstuff

inductive BridgeThread
  | events
  | proposer
  deriving DecidableEq

variable [VMBase]

/-- Where the event thread is. -/
inductive EventThread
  | idle
  /-- `apply_block` has locked the speculation map and parsed the block -/
  | compare (height : Nat) (value : Option VMBlock)
  /-- before `revert_to_last_commitment` -/
  | revert (height : Nat) (value : Option VMBlock)
  /-- `finish_work_and_force_rewind` waits for the VM thread -/
  | awaitRewind (height : Nat) (value : Option VMBlock)
  | rewind (height : Nat) (value : Option VMBlock)
  /-- before `add_height_pair` -/
  | addPair (height : Nat) (value : Option VMBlock)
  /-- `submit_block_for_exec` waits for the VM thread -/
  | awaitSubmit (height : Nat) (value : Option VMBlock)
  | submit (height : Nat) (value : Option VMBlock)
  /-- between `apply_block` and `notify_vm_of_commitment` -/
  | applied (height : Nat)
  /-- `log_commitment` waits for the VM thread -/
  | awaitLog (committedBlockId : VMBlockID)
  | logCommitment (committedBlockId : VMBlockID)
  | failed (message : String)

/-- Where the proposing thread is. -/
inductive ProposerThread
  | idle
  /-- `get_and_apply_next_proposal` has locked the speculation map -/
  | request (height : Nat)
  /-- `get_proposal` waits for the VM thread -/
  | await (height : Nat)
  /-- before `add_height_pair` -/
  | record (height : Nat) (proposal : Option VMBlock)
  /-- the call has returned the body to its caller -/
  | returned (height : Nat) (body : Body)

def EventThread.isIdle : EventThread → Bool
  | .idle => true
  | _ => false

def ProposerThread.isIdle : ProposerThread → Bool
  | .idle => true
  | _ => false

theorem EventThread.eq_idle {place : EventThread}
    (idle : place.isIdle = true) : place = .idle := by
  cases place <;> first | rfl | cases idle

theorem ProposerThread.eq_idle {place : ProposerThread}
    (idle : place.isIdle = true) : place = .idle := by
  cases place <;> first | rfl | cases idle

/-- The event thread is inside `apply_block`, which holds the lock. -/
def EventThread.inApplyBlock : EventThread → Bool
  | .compare _ _ | .revert _ _ | .awaitRewind _ _ | .rewind _ _ => true
  | .addPair _ _ | .awaitSubmit _ _ | .submit _ _ => true
  | _ => false

/-- The next step of the event thread locks the speculation map. -/
def EventThread.locksNext : EventThread → Bool
  | .revert _ _ | .applied _ => true
  | _ => false

/-- The event thread can take its next step, given whether it can lock the
speculation map and whether the VM thread has nothing to do. -/
def EventThread.Ready (canLock vmIdle : Prop) : EventThread → Prop
  | .idle => False
  | .compare _ _ => True
  | .revert _ _ => canLock
  | .awaitRewind _ _ => vmIdle
  | .rewind _ _ => True
  | .addPair _ _ => True
  | .awaitSubmit _ _ => vmIdle
  | .submit _ _ => True
  | .applied _ => canLock
  | .awaitLog _ => vmIdle
  | .logCommitment _ => True
  | .failed _ => False

instance EventThread.decidableReady (canLock vmIdle : Prop)
    [Decidable canLock] [Decidable vmIdle] :
    (place : EventThread) → Decidable (place.Ready canLock vmIdle)
  | .idle | .failed _ => inferInstanceAs (Decidable False)
  | .revert _ _ | .applied _ => inferInstanceAs (Decidable canLock)
  | .awaitRewind _ _ | .awaitSubmit _ _ | .awaitLog _ =>
      inferInstanceAs (Decidable vmIdle)
  | .compare _ _ | .rewind _ _ | .addPair _ _ | .submit _ _
  | .logCommitment _ => inferInstanceAs (Decidable True)

/-- The proposing thread can take its next step, given whether a proposal is
buffered. -/
def ProposerThread.Ready (buffered : Prop) : ProposerThread → Prop
  | .idle => False
  | .await _ => buffered
  | .request _ => True
  | .record _ _ => True
  | .returned _ _ => True

instance ProposerThread.decidableReady (buffered : Prop) [Decidable buffered] :
    (place : ProposerThread) → Decidable (place.Ready buffered)
  | .idle => inferInstanceAs (Decidable False)
  | .await _ => inferInstanceAs (Decidable buffered)
  | .request _ | .record _ _ | .returned _ _ =>
      inferInstanceAs (Decidable True)

/-- The proposing thread is inside `get_and_apply_next_proposal`, which holds
the lock. -/
def ProposerThread.inGetProposal : ProposerThread → Bool
  | .request _ | .await _ | .record _ _ => true
  | _ => false

structure HotstuffVMBridge where
  speculationMap : SpeculativeExecGadget VMBlockID BridgeThread
  vmInterface : VMControlInterface
  eventThread : EventThread
  proposerThread : ProposerThread
  /-- the exception that ended the VM thread -/
  vmThreadFailed : Option String

namespace HotstuffVMBridge

/-- After `init_clean`. -/
def init (configs : HotstuffConfigs) : HotstuffVMBridge where
  speculationMap := .init
  vmInterface := .init configs
  eventThread := .idle
  proposerThread := .idle
  vmThreadFailed := none

def getBlockId (blk : Option VMBlock) : VMBlockID :=
  match blk with
  | some blk => VMBase.nonemptyBlockId blk
  | none => VMBase.emptyBlockId

/-! ### The event thread -/

/-- The start of `apply_block`: lock the speculation map and parse the block. -/
def applyBlock (bridge : HotstuffVMBridge) (height : Nat) (body : Body) :
    HotstuffVMBridge :=
  { bridge with
    speculationMap := bridge.speculationMap.lock .events
    eventThread := .compare height (VMBase.tryParse body) }

/-- Compare the decided block with the lowest speculative one.  When they agree
the VM has executed it already and `apply_block` returns. -/
def compareStep (bridge : HotstuffVMBridge) (height : Nat)
    (value : Option VMBlock) : HotstuffVMBridge :=
  if bridge.speculationMap.empty then
    { bridge with eventThread := .addPair height value }
  else
    match bridge.speculationMap.getLowestSpeculativeHotstuffHeight with
    | .error message =>
        { bridge with
          speculationMap := bridge.speculationMap.unlock
          eventThread := .failed message }
    | .ok (_, speculativeBlockId) =>
        if getBlockId value = speculativeBlockId then
          { bridge with
            speculationMap := bridge.speculationMap.unlock
            eventThread := .applied height }
        else { bridge with eventThread := .revert height value }

/-- `revert_to_last_commitment` -/
def revertStep (bridge : HotstuffVMBridge) (height : Nat)
    (value : Option VMBlock) : HotstuffVMBridge :=
  { bridge with
    speculationMap := bridge.speculationMap.clear .events
    eventThread := .awaitRewind height value }

def rewindStep (bridge : HotstuffVMBridge) (height : Nat)
    (value : Option VMBlock) : HotstuffVMBridge :=
  { bridge with
    vmInterface := bridge.vmInterface.forceRewind
    eventThread := .addPair height value }

def addPairStep (bridge : HotstuffVMBridge) (height : Nat)
    (value : Option VMBlock) : HotstuffVMBridge :=
  { bridge with
    speculationMap :=
      bridge.speculationMap.addHeightPair height (getBlockId value)
    eventThread := .awaitSubmit height value }

/-- `submit_block_for_exec` and the return from `apply_block`. -/
def submitStep (bridge : HotstuffVMBridge) (height : Nat)
    (value : Option VMBlock) : HotstuffVMBridge :=
  { bridge with
    speculationMap := bridge.speculationMap.unlock
    vmInterface := bridge.vmInterface.submitBlockForExec value
    eventThread := .applied height }

/-- The start of `notify_vm_of_commitment`. -/
def notifyStep (bridge : HotstuffVMBridge) (height : Nat) : HotstuffVMBridge :=
  match bridge.speculationMap.onCommitHotstuff height with
  | .error message => { bridge with eventThread := .failed message }
  | .ok (committedBlockId, remaining) =>
      { bridge with
        speculationMap := remaining
        eventThread := .awaitLog committedBlockId }

def logStep (bridge : HotstuffVMBridge) (committedBlockId : VMBlockID) :
    HotstuffVMBridge :=
  { bridge with
    vmInterface := bridge.vmInterface.logCommitment committedBlockId
    eventThread := .idle }

def eventStep (bridge : HotstuffVMBridge) : HotstuffVMBridge :=
  match bridge.eventThread with
  | .idle => bridge
  | .compare height value => bridge.compareStep height value
  | .revert height value => bridge.revertStep height value
  | .awaitRewind height value =>
      { bridge with eventThread := .rewind height value }
  | .rewind height value => bridge.rewindStep height value
  | .addPair height value => bridge.addPairStep height value
  | .awaitSubmit height value =>
      { bridge with eventThread := .submit height value }
  | .submit height value => bridge.submitStep height value
  | .applied height => bridge.notifyStep height
  | .awaitLog committedBlockId =>
      { bridge with eventThread := .logCommitment committedBlockId }
  | .logCommitment committedBlockId => bridge.logStep committedBlockId
  | .failed _ => bridge

/-! ### The proposing thread -/

def makeEmptyProposal (bridge : HotstuffVMBridge) (proposalHeight : Nat) :
    HotstuffVMBridge :=
  { bridge with
    speculationMap :=
      ((bridge.speculationMap.lock .proposer).addHeightPair proposalHeight
        VMBase.emptyBlockId).unlock
    proposerThread := .returned proposalHeight [] }

/-- The start of `get_and_apply_next_proposal`. -/
def getAndApplyNextProposal (bridge : HotstuffVMBridge)
    (proposalHeight : Nat) : HotstuffVMBridge :=
  { bridge with
    speculationMap := bridge.speculationMap.lock .proposer
    proposerThread := .request proposalHeight }

def requestStep (bridge : HotstuffVMBridge) (proposalHeight : Nat) :
    HotstuffVMBridge :=
  match bridge.vmInterface.getProposal with
  | (.answer proposal, vmInterface) =>
      { bridge with
        vmInterface := vmInterface
        proposerThread := .record proposalHeight proposal }
  | (.wait, vmInterface) =>
      { bridge with
        vmInterface := vmInterface
        proposerThread := .await proposalHeight }

/-- The wait of `get_proposal` is over. -/
def takeStep (bridge : HotstuffVMBridge) (proposalHeight : Nat) :
    HotstuffVMBridge :=
  { bridge with
    vmInterface := bridge.vmInterface.takeProposal.2
    proposerThread := .record proposalHeight bridge.vmInterface.takeProposal.1 }

/-- The end of `get_and_apply_next_proposal`. -/
def recordStep (bridge : HotstuffVMBridge) (proposalHeight : Nat)
    (proposal : Option VMBlock) : HotstuffVMBridge :=
  { bridge with
    speculationMap :=
      (bridge.speculationMap.addHeightPair proposalHeight
        (getBlockId proposal)).unlock
    proposerThread :=
      .returned proposalHeight ((proposal.map VMBase.serialize).getD []) }

def proposerStep (bridge : HotstuffVMBridge) : HotstuffVMBridge :=
  match bridge.proposerThread with
  | .idle => bridge
  | .request height => bridge.requestStep height
  | .await height => bridge.takeStep height
  | .record height proposal => bridge.recordStep height proposal
  | .returned _ _ => { bridge with proposerThread := .idle }

/-! ### The VM thread -/

def vmStep (bridge : HotstuffVMBridge) : HotstuffVMBridge :=
  match bridge.vmInterface.run with
  | .error message => { bridge with vmThreadFailed := some message }
  | .ok vmInterface => { bridge with vmInterface := vmInterface }

/-! ### The transition system -/

/-- What can happen at the bridge: a call by one of the two hotstuff threads, or
the next step of a thread. -/
inductive Action
  | applyBlock (height : Nat) (body : Body)
  | events
  | makeEmptyProposal (proposalHeight : Nat)
  | getAndApplyNextProposal (proposalHeight : Nat)
  | proposer
  | vm
  | putVmInProposerMode
  | stopProposals

def CanLock (kind : MutexKind) (bridge : HotstuffVMBridge)
    (thread : BridgeThread) : Prop :=
  bridge.speculationMap.mtx.CanLock kind thread

def Enabled (kind : MutexKind) (bridge : HotstuffVMBridge) :
    Action → Prop
  | .applyBlock _ _ =>
      bridge.eventThread.isIdle = true ∧ bridge.CanLock kind .events
  | .events => bridge.eventThread.Ready (bridge.CanLock kind .events)
      (bridge.vmInterface.existsWorkToDo = false)
  | .makeEmptyProposal _ =>
      bridge.proposerThread.isIdle = true ∧ bridge.CanLock kind .proposer
  | .getAndApplyNextProposal _ =>
      bridge.proposerThread.isIdle = true ∧ bridge.CanLock kind .proposer
  | .proposer => bridge.proposerThread.Ready
      (bridge.vmInterface.proposalBuffer.isEmpty = false)
  | .vm =>
      bridge.vmThreadFailed = none ∧ bridge.vmInterface.existsWorkToDo = true
  | .putVmInProposerMode => True
  | .stopProposals => True

def next (bridge : HotstuffVMBridge) : Action → HotstuffVMBridge
  | .applyBlock height body => bridge.applyBlock height body
  | .events => bridge.eventStep
  | .makeEmptyProposal height => bridge.makeEmptyProposal height
  | .getAndApplyNextProposal height => bridge.getAndApplyNextProposal height
  | .proposer => bridge.proposerStep
  | .vm => bridge.vmStep
  | .putVmInProposerMode =>
      { bridge with vmInterface := bridge.vmInterface.setProposer }
  | .stopProposals =>
      { bridge with vmInterface := bridge.vmInterface.stopProposals }

instance decidableEnabled (kind : MutexKind) (bridge : HotstuffVMBridge) :
    (action : Action) → Decidable (bridge.Enabled kind action)
  | .applyBlock _ _ => inferInstanceAs (Decidable (_ ∧ Mutex.CanLock _ _ _))
  | .events =>
      let _ : Decidable (bridge.CanLock kind .events) :=
        inferInstanceAs (Decidable (Mutex.CanLock _ _ _))
      inferInstanceAs (Decidable (EventThread.Ready _ _ _))
  | .makeEmptyProposal _ =>
      inferInstanceAs (Decidable (_ ∧ Mutex.CanLock _ _ _))
  | .getAndApplyNextProposal _ =>
      inferInstanceAs (Decidable (_ ∧ Mutex.CanLock _ _ _))
  | .proposer => inferInstanceAs (Decidable (ProposerThread.Ready _ _))
  | .vm => inferInstanceAs (Decidable (_ ∧ _))
  | .putVmInProposerMode => inferInstanceAs (Decidable True)
  | .stopProposals => inferInstanceAs (Decidable True)

end HotstuffVMBridge

/-- The bridge with a speculation map whose mutex is of the given kind. -/
def bridgeSystem (kind : MutexKind) (configs : HotstuffConfigs) :
    TransitionSystem HotstuffVMBridge HotstuffVMBridge.Action where
  initial := fun bridge => bridge = .init configs
  enabled := HotstuffVMBridge.Enabled kind
  next := HotstuffVMBridge.next

instance decidableBridgeEnabled (kind : MutexKind) (configs : HotstuffConfigs)
    (bridge : HotstuffVMBridge) (action : HotstuffVMBridge.Action) :
    Decidable ((bridgeSystem kind configs).enabled bridge action) :=
  inferInstanceAs (Decidable (bridge.Enabled kind action))

namespace HotstuffVMBridge

variable {kind : MutexKind}

/-! ### What a step does -/

/-- The steps of the event thread. -/
inductive EventMove (kind : MutexKind) (bridge : HotstuffVMBridge) :
    HotstuffVMBridge → Prop
  | unspeculated {height : Nat} {value : Option VMBlock}
      (place : bridge.eventThread = .compare height value)
      (nothing : bridge.speculationMap.heightMap = []) :
      EventMove kind bridge { bridge with eventThread := .addPair height value }
  | agree {height : Nat} {value : Option VMBlock} {lowest : Nat × VMBlockID}
      {higher : List (Nat × VMBlockID)}
      (place : bridge.eventThread = .compare height value)
      (recorded : bridge.speculationMap.heightMap = lowest :: higher)
      (same : getBlockId value = lowest.2) :
      EventMove kind bridge
        { bridge with
          speculationMap := bridge.speculationMap.unlock
          eventThread := .applied height }
  | differ {height : Nat} {value : Option VMBlock} {lowest : Nat × VMBlockID}
      {higher : List (Nat × VMBlockID)}
      (place : bridge.eventThread = .compare height value)
      (recorded : bridge.speculationMap.heightMap = lowest :: higher)
      (different : getBlockId value ≠ lowest.2) :
      EventMove kind bridge { bridge with eventThread := .revert height value }
  | revert {height : Nat} {value : Option VMBlock}
      (place : bridge.eventThread = .revert height value)
      (allowed : bridge.CanLock kind .events) :
      EventMove kind bridge (bridge.revertStep height value)
  | awaitRewind {height : Nat} {value : Option VMBlock}
      (place : bridge.eventThread = .awaitRewind height value)
      (vmIdle : bridge.vmInterface.existsWorkToDo = false) :
      EventMove kind bridge { bridge with eventThread := .rewind height value }
  | rewind {height : Nat} {value : Option VMBlock}
      (place : bridge.eventThread = .rewind height value) :
      EventMove kind bridge (bridge.rewindStep height value)
  | addPair {height : Nat} {value : Option VMBlock}
      (place : bridge.eventThread = .addPair height value) :
      EventMove kind bridge (bridge.addPairStep height value)
  | awaitSubmit {height : Nat} {value : Option VMBlock}
      (place : bridge.eventThread = .awaitSubmit height value)
      (vmIdle : bridge.vmInterface.existsWorkToDo = false) :
      EventMove kind bridge { bridge with eventThread := .submit height value }
  | submit {height : Nat} {value : Option VMBlock}
      (place : bridge.eventThread = .submit height value) :
      EventMove kind bridge (bridge.submitStep height value)
  | commit {height : Nat} {committedBlockId : VMBlockID}
      {remaining : SpeculativeExecGadget VMBlockID BridgeThread}
      (place : bridge.eventThread = .applied height)
      (allowed : bridge.CanLock kind .events)
      (popped : bridge.speculationMap.onCommitHotstuff height =
        .ok (committedBlockId, remaining)) :
      EventMove kind bridge
        { bridge with
          speculationMap := remaining
          eventThread := .awaitLog committedBlockId }
  | commitFailure {height : Nat} {message : String}
      (place : bridge.eventThread = .applied height)
      (raised : bridge.speculationMap.onCommitHotstuff height =
        .error message) :
      EventMove kind bridge { bridge with eventThread := .failed message }
  | awaitLog {committedBlockId : VMBlockID}
      (place : bridge.eventThread = .awaitLog committedBlockId)
      (vmIdle : bridge.vmInterface.existsWorkToDo = false) :
      EventMove kind bridge
        { bridge with eventThread := .logCommitment committedBlockId }
  | log {committedBlockId : VMBlockID}
      (place : bridge.eventThread = .logCommitment committedBlockId) :
      EventMove kind bridge (bridge.logStep committedBlockId)

theorem eventMove_compare {bridge : HotstuffVMBridge} {height : Nat}
    {value : Option VMBlock}
    (place : bridge.eventThread = .compare height value) :
    EventMove kind bridge (bridge.compareStep height value) := by
  cases recorded : bridge.speculationMap.heightMap with
  | nil =>
      have result : bridge.compareStep height value =
          { bridge with eventThread := .addPair height value } := by
        simp [compareStep, SpeculativeExecGadget.empty, recorded]
      rw [result]
      exact .unspeculated place recorded
  | cons lowest higher =>
      have result : bridge.compareStep height value =
          if getBlockId value = lowest.2 then
            { bridge with
              speculationMap := bridge.speculationMap.unlock
              eventThread := .applied height }
          else { bridge with eventThread := .revert height value } := by
        simp [compareStep, SpeculativeExecGadget.empty,
          SpeculativeExecGadget.getLowestSpeculativeHotstuffHeight, recorded]
      rw [result]
      split
      · rename_i same
        exact .agree place recorded same
      · rename_i different
        exact .differ place recorded different

theorem eventMove_of_enabled {bridge : HotstuffVMBridge}
    (allowed : bridge.Enabled kind .events) :
    EventMove kind bridge bridge.eventStep := by
  unfold Enabled at allowed
  unfold eventStep
  cases place : bridge.eventThread with
  | idle =>
      rw [place] at allowed
      exact allowed.elim
  | compare height value => exact eventMove_compare place
  | revert height value =>
      rw [place] at allowed
      exact .revert place allowed
  | awaitRewind height value =>
      rw [place] at allowed
      exact .awaitRewind place allowed
  | rewind height value => exact .rewind place
  | addPair height value => exact .addPair place
  | awaitSubmit height value =>
      rw [place] at allowed
      exact .awaitSubmit place allowed
  | submit height value => exact .submit place
  | applied height =>
      rw [place] at allowed
      dsimp only [notifyStep]
      split
      · rename_i message raised
        exact .commitFailure place raised
      · rename_i committedBlockId remaining popped
        exact .commit place allowed popped
  | awaitLog committedBlockId =>
      rw [place] at allowed
      exact .awaitLog place allowed
  | logCommitment committedBlockId => exact .log place
  | failed message =>
      rw [place] at allowed
      exact allowed.elim

/-- The steps of the proposing thread. -/
inductive ProposerMove (bridge : HotstuffVMBridge) : HotstuffVMBridge → Prop
  | nothing {height : Nat} (place : bridge.proposerThread = .request height) :
      ProposerMove bridge
        { bridge with proposerThread := .record height none }
  | ask {height requests : Nat}
      (place : bridge.proposerThread = .request height)
      (proposing : bridge.vmInterface.isProposer = true) :
      ProposerMove bridge
        { bridge with
          vmInterface :=
            { bridge.vmInterface with additionalProposalRequests := requests }
          proposerThread := .await height }
  | take {height requests : Nat} {proposal : VMBlock} {later : List VMBlock}
      (place : bridge.proposerThread = .request height ∧
          bridge.vmInterface.isProposer = true ∨
        bridge.proposerThread = .await height)
      (buffered : bridge.vmInterface.proposalBuffer = proposal :: later) :
      ProposerMove bridge
        { bridge with
          vmInterface :=
            { bridge.vmInterface with
              proposalBuffer := later
              additionalProposalRequests := requests }
          proposerThread := .record height (some proposal) }
  | record {height : Nat} {proposal : Option VMBlock}
      (place : bridge.proposerThread = .record height proposal) :
      ProposerMove bridge (bridge.recordStep height proposal)
  | finish {height : Nat} {body : Body}
      (place : bridge.proposerThread = .returned height body) :
      ProposerMove bridge { bridge with proposerThread := .idle }

theorem proposerMove_request {bridge : HotstuffVMBridge} {height : Nat}
    (place : bridge.proposerThread = .request height) :
    ProposerMove bridge (bridge.requestStep height) := by
  unfold requestStep
  rcases bridge.vmInterface.getProposal_cases with
    result | ⟨proposing, ⟨requests, result⟩ |
      ⟨proposal, later, requests, buffered, result⟩⟩
  · rw [result]
    exact .nothing place
  · rw [result]
    exact .ask place proposing
  · rw [result]
    exact .take (.inl ⟨place, proposing⟩) buffered

theorem proposerMove_of_enabled {bridge : HotstuffVMBridge}
    (allowed : bridge.Enabled kind .proposer) :
    ProposerMove bridge bridge.proposerStep := by
  unfold Enabled at allowed
  unfold proposerStep
  cases place : bridge.proposerThread with
  | idle =>
      rw [place] at allowed
      exact allowed.elim
  | request height => exact proposerMove_request place
  | await height =>
      rw [place] at allowed
      cases buffered : bridge.vmInterface.proposalBuffer with
      | nil =>
          rw [ProposerThread.Ready, buffered] at allowed
          cases allowed
      | cons proposal later =>
          obtain ⟨requests, taken⟩ :=
            VMControlInterface.takeProposal_cons buffered
          simp only [takeStep, taken]
          exact .take (.inr place) buffered
  | record height proposal => exact .record place
  | returned height body => exact .finish place

end HotstuffVMBridge

end Hotstuff
