import Hotstuff.Mutex
import Hotstuff.TransitionSystem
import Hotstuff.VMControlInterface

/-!
# Runs of the VM interface

Several threads call the interface while the VM thread works through what is
requested.  `get_proposal` and `submit_block_for_exec` are called with the lock
of the bridge on the speculation map, and `get_proposal` keeps the lock while it
waits; the other methods are called at any time.

`submit_block_for_exec` and `log_commitment` wait for the VM thread before they
lock the interface, but the VM may have got new work in between.  In the model
they happen at any time, which includes all runs of the program.

The history of a run records the calls and what the VM was told to do.
-/

namespace Hotstuff

section Runs

variable [VMBase]

/-- What happens at the interface: calls, work of the VM, and answers. -/
inductive InterfaceEvent
  | submitted (submission : Option VMBlock)
  | logged (blockId : VMBlockID)
  | executed (block : VMBlock)
  | received (blockId : VMBlockID)
  | produced (block : VMBlock)
  | handedOut (block : VMBlock)

namespace InterfaceEvent

def submittedBlock : InterfaceEvent → Option VMBlock
  | .submitted submission => submission
  | _ => none

def executedBlock : InterfaceEvent → Option VMBlock
  | .executed block => some block
  | _ => none

def producedBlock : InterfaceEvent → Option VMBlock
  | .produced block => some block
  | _ => none

def handedOutBlock : InterfaceEvent → Option VMBlock
  | .handedOut block => some block
  | _ => none

/-- The work of the VM that an event stands for. -/
def replay (vm : VMState) : InterfaceEvent → VMState
  | .executed block => VMBase.execBlock vm block
  | .received blockId => VMBase.logCommitment vm blockId
  | .produced _ => (VMBase.propose vm).2
  | _ => vm

end InterfaceEvent

/-- The interface with the callers that use it. -/
structure InterfaceRun (Thread : Type) where
  interface : VMControlInterface
  /-- the lock on the speculation map -/
  bridgeLock : Mutex Thread
  /-- the caller that waits in `get_proposal` -/
  waiting : Option Thread
  vmThreadFailed : Option String
  /-- oldest event first -/
  history : List InterfaceEvent

namespace InterfaceRun

variable {Thread : Type}

def init (configs : HotstuffConfigs) : InterfaceRun Thread where
  interface := .init configs
  bridgeLock := .free
  waiting := none
  vmThreadFailed := none
  history := []

def record (run : InterfaceRun Thread) (events : List InterfaceEvent) :
    InterfaceRun Thread :=
  { run with history := run.history ++ events }

inductive Action (Thread : Type)
  | setProposer
  | getProposal (caller : Thread)
  /-- `cv.wait` in `get_proposal` returns -/
  | wakeUp
  | submitBlockForExec (caller : Thread) (submission : Option VMBlock)
  | logCommitment (blockId : VMBlockID)
  | stopProposals
  /-- one round of the VM thread -/
  | run

def Enabled (run : InterfaceRun Thread) : Action Thread → Prop
  | .setProposer => True
  | .getProposal caller => run.bridgeLock.CanLock .nonrecursive caller
  | .wakeUp => run.waiting.isSome = true ∧
      run.interface.proposalBuffer.isEmpty = false
  | .submitBlockForExec caller _ =>
      run.bridgeLock.CanLock .nonrecursive caller
  | .logCommitment _ => True
  | .stopProposals => True
  | .run => run.vmThreadFailed = none ∧ run.interface.existsWorkToDo = true

/-- A caller gets an answer and gives the lock back. -/
def answer (run : InterfaceRun Thread) (proposal : Option VMBlock)
    (interface : VMControlInterface) : InterfaceRun Thread :=
  { run with
    interface := interface
    bridgeLock := run.bridgeLock.unlock
    waiting := none
    history := run.history ++ proposal.toList.map .handedOut }

def getProposal (run : InterfaceRun Thread) (caller : Thread) :
    InterfaceRun Thread :=
  let locked := { run with bridgeLock := run.bridgeLock.lock caller }
  match run.interface.getProposal with
  | (.answer proposal, interface) => locked.answer proposal interface
  | (.wait, interface) =>
      { locked with interface := interface, waiting := some caller }

/-- What the VM is told in one round, in this order. -/
def roundEvents (interface : VMControlInterface) : List InterfaceEvent :=
  let settled := interface.validateBlocks.logHighestCommitted
  (interface.blocksToValidate.filterMap id).map .executed ++
    interface.highestCommittedId.toList.map .received ++
    if settled.additionalProposalRequests > 0 then
      [.produced (VMBase.propose settled.vmInstance).1]
    else []

def runVm (run : InterfaceRun Thread) : InterfaceRun Thread :=
  match run.interface.run with
  | .error message => { run with vmThreadFailed := some message }
  | .ok interface =>
      { run with interface := interface }.record (roundEvents run.interface)

def next (run : InterfaceRun Thread) : Action Thread → InterfaceRun Thread
  | .setProposer => { run with interface := run.interface.setProposer }
  | .getProposal caller => run.getProposal caller
  | .wakeUp => run.answer run.interface.takeProposal.1
      run.interface.takeProposal.2
  | .submitBlockForExec _ submission =>
      { run with interface := run.interface.submitBlockForExec submission
        }.record [.submitted submission]
  | .logCommitment blockId =>
      { run with interface := run.interface.logCommitment blockId }.record
        [.logged blockId]
  | .stopProposals => { run with interface := run.interface.stopProposals }
  | .run => run.runVm

end InterfaceRun

/-- All interleavings, for a target and a refill setting. -/
def interfaceSystem (Thread : Type) (configs : HotstuffConfigs) :
    TransitionSystem (InterfaceRun Thread) (InterfaceRun.Action Thread) where
  initial := fun run => run = .init configs
  enabled := InterfaceRun.Enabled
  next := InterfaceRun.next

/-! ### Requests -/

namespace VMControlInterface

variable {interface : VMControlInterface}

/-- The buffer and the requests together stay below the limit. -/
structure Bounded (interface : VMControlInterface) (limit : Nat) : Prop where
  target : interface.proposalBufferTarget ≤ limit
  sum : interface.proposalBuffer.length +
    interface.additionalProposalRequests ≤ limit

variable {limit : Nat}

theorem bounded_init (configs : HotstuffConfigs) :
    (init configs).Bounded configs.proposalBufferTarget :=
  ⟨Nat.le_refl _, Nat.zero_le _⟩

theorem Bounded.takeProposal (bounded : interface.Bounded limit)
    {proposal : VMBlock} {later : List VMBlock}
    (buffered : interface.proposalBuffer = proposal :: later) :
    interface.takeProposal.2.Bounded limit := by
  have target := bounded.target
  have sum := bounded.sum
  rw [buffered, List.length_cons] at sum
  rw [takeProposal_eq buffered]
  refine ⟨target, ?_⟩
  change later.length + interface.refilled later.length ≤ limit
  unfold refilled
  split
  · split <;> omega
  · omega

theorem Bounded.getProposal (bounded : interface.Bounded limit) :
    interface.getProposal.2.Bounded limit := by
  rcases interface.getProposal_eq with
    result | ⟨-, ⟨buffered, -, result⟩ | ⟨proposal, later, buffered, result⟩⟩
  · rw [result]
    exact bounded
  · have target := bounded.target
    have sum := bounded.sum
    rw [result]
    refine ⟨target, ?_⟩
    change interface.proposalBuffer.length +
      max interface.additionalProposalRequests
        interface.proposalBufferTarget ≤ limit
    rw [buffered, List.length_nil] at sum ⊢
    omega
  · rw [result]
    exact bounded.takeProposal buffered

/-- A round makes a proposal when one is requested. -/
theorem makeProposal_ok {after : VMControlInterface}
    (made : interface.makeProposal = .ok after) :
    interface.additionalProposalRequests = 0 ∧ after = interface ∨
      ∃ requests, interface.additionalProposalRequests = requests + 1 ∧
        after =
          { interface with
            vmInstance := (VMBase.propose interface.vmInstance).2
            proposalBuffer := interface.proposalBuffer ++
              [(VMBase.propose interface.vmInstance).1]
            additionalProposalRequests := requests } := by
  unfold makeProposal at made
  split at made
  · rename_i requested
    split at made
    · cases made
    · refine .inr ⟨interface.additionalProposalRequests - 1, by omega, ?_⟩
      exact (Except.ok.inj made).symm
  · rename_i unrequested
    exact .inl ⟨by omega, (Except.ok.inj made).symm⟩

theorem Bounded.makeProposal (bounded : interface.Bounded limit)
    {after : VMControlInterface} (made : interface.makeProposal = .ok after) :
    after.Bounded limit := by
  rcases makeProposal_ok made with ⟨-, rfl⟩ | ⟨requests, count, rfl⟩
  · exact bounded
  · have sum := bounded.sum
    refine ⟨bounded.target, ?_⟩
    simp only [List.length_append, List.length_cons, List.length_nil]
    omega

/-- What the VM does before it makes a proposal does not change the requests. -/
theorem Bounded.settle (bounded : interface.Bounded limit) :
    interface.validateBlocks.logHighestCommitted.Bounded limit := by
  unfold logHighestCommitted
  split
  · exact ⟨bounded.target, bounded.sum⟩
  · exact ⟨bounded.target, bounded.sum⟩

theorem polite_takeProposal (proposing : interface.isProposer = true)
    {proposal : VMBlock} {later : List VMBlock}
    (buffered : interface.proposalBuffer = proposal :: later) :
    interface.takeProposal.2.Polite := by
  intro _
  rw [takeProposal_eq buffered]
  exact proposing

theorem logCommitment_eq (interface : VMControlInterface)
    (blockId : VMBlockID) :
    ∃ slot, interface.logCommitment blockId =
      { interface with highestCommittedId := slot } := by
  unfold VMControlInterface.logCommitment
  split
  · exact ⟨_, rfl⟩
  · exact ⟨_, rfl⟩

theorem Polite.settle (polite : interface.Polite) :
    interface.validateBlocks.logHighestCommitted.Polite := by
  obtain ⟨sameRequests, sameMode, -⟩ :=
    interface.validateBlocks.logHighestCommitted_frame
  intro requested
  rw [sameMode]
  exact polite (sameRequests ▸ requested)

/-- A round of a polite interface does not throw.  It keeps the mode, and what
is no longer requested is in the buffer. -/
theorem Polite.run (polite : interface.Polite) :
    ∃ after, interface.run = .ok after ∧
      after.isProposer = interface.isProposer ∧
      after.additionalProposalRequests ≤
        interface.additionalProposalRequests ∧
      after.proposalBuffer.length + after.additionalProposalRequests =
        interface.proposalBuffer.length +
          interface.additionalProposalRequests := by
  obtain ⟨sameRequests, sameMode, sameBuffer, -⟩ :=
    interface.validateBlocks.logHighestCommitted_frame
  have sameRequests :
      interface.validateBlocks.logHighestCommitted.additionalProposalRequests =
        interface.additionalProposalRequests := sameRequests
  have sameBuffer :
      interface.validateBlocks.logHighestCommitted.proposalBuffer =
        interface.proposalBuffer := sameBuffer
  rcases polite.settle.makeProposal with
    ⟨none, result⟩ | ⟨requests, count, result⟩
  · refine ⟨_, result, sameMode, Nat.le_of_eq sameRequests, ?_⟩
    rw [sameRequests, sameBuffer]
  · refine ⟨_, result, sameMode, ?_, ?_⟩
    · simp only
      omega
    · simp only [sameBuffer, List.length_append, List.length_cons,
        List.length_nil]
      omega

end VMControlInterface

/-! ### The history -/

/-- What must have happened before an event: a commitment is received after it
was logged and after all submitted blocks have been executed, and a proposal is
what the VM proposes in its state. -/
def InterfaceEvent.Follows (before : List InterfaceEvent) :
    InterfaceEvent → Prop
  | .received blockId =>
      .logged blockId ∈ before ∧
        before.filterMap executedBlock = before.filterMap submittedBlock
  | .produced block =>
      block = (VMBase.propose (before.foldl replay VMBase.initClean)).1
  | _ => True

/-- Every event follows what must have happened before it. -/
def Justified (history : List InterfaceEvent) : Prop :=
  ∀ before event after, history = before ++ event :: after →
    event.Follows before

theorem justified_nil : Justified [] := by
  intro before event after split
  simp at split

theorem Justified.concat {history : List InterfaceEvent}
    (justified : Justified history) {event : InterfaceEvent}
    (follows : event.Follows history) : Justified (history ++ [event]) := by
  intro before other after split
  rcases split_of_concat split with ⟨rfl, rfl⟩ | ⟨middle, rfl⟩
  · exact follows
  · exact justified before other middle rfl

theorem Justified.append_executed {history : List InterfaceEvent}
    (justified : Justified history) (blocks : List VMBlock) :
    Justified (history ++ blocks.map .executed) := by
  induction blocks generalizing history with
  | nil => simpa using justified
  | cons block blocks ih =>
      rw [List.map_cons, List.append_cons]
      exact ih (justified.concat trivial)

namespace VMControlInterface

/-- The history tells what is in the queues of the interface and in which state
the VM is. -/
structure Recorded (interface : VMControlInterface)
    (history : List InterfaceEvent) : Prop where
  proposals : (history.filterMap InterfaceEvent.handedOutBlock ++
    interface.proposalBuffer).Sublist
      (history.filterMap InterfaceEvent.producedBlock)
  executions : history.filterMap InterfaceEvent.executedBlock ++
    interface.blocksToValidate.filterMap id =
      history.filterMap InterfaceEvent.submittedBlock
  committed : ∀ blockId, interface.highestCommittedId = some blockId →
    .logged blockId ∈ history
  replayed : interface.vmInstance =
    history.foldl InterfaceEvent.replay VMBase.initClean
  justified : Justified history

theorem recorded_init (configs : HotstuffConfigs) :
    (init configs).Recorded [] where
  proposals := List.Sublist.refl _
  executions := rfl
  committed := by
    intro blockId logged
    cases logged
  replayed := rfl
  justified := justified_nil

variable {interface : VMControlInterface} {history : List InterfaceEvent}

/-- The mode and the requests are not part of the history. -/
theorem Recorded.requests (recorded : interface.Recorded history)
    (target requests : Nat) (isProposer : Bool) :
    { interface with
      proposalBufferTarget := target
      additionalProposalRequests := requests
      isProposer := isProposer }.Recorded history :=
  ⟨recorded.proposals, recorded.executions, recorded.committed,
    recorded.replayed, recorded.justified⟩

theorem Recorded.handOut (recorded : interface.Recorded history)
    {proposal : VMBlock} {later : List VMBlock}
    (buffered : interface.proposalBuffer = proposal :: later) :
    interface.takeProposal.2.Recorded
      (history ++ [.handedOut proposal]) := by
  rw [takeProposal_eq buffered]
  constructor
  · have proposals := recorded.proposals
    rw [buffered] at proposals
    simpa [List.filterMap_cons, InterfaceEvent.handedOutBlock,
      InterfaceEvent.producedBlock] using proposals
  · simpa [List.filterMap_cons, InterfaceEvent.executedBlock,
      InterfaceEvent.submittedBlock] using recorded.executions
  · intro blockId logged
    exact List.mem_append_left _ (recorded.committed blockId logged)
  · simpa [InterfaceEvent.replay] using recorded.replayed
  · exact recorded.justified.concat trivial

theorem Recorded.submitBlockForExec (recorded : interface.Recorded history)
    (submission : Option VMBlock) :
    (interface.submitBlockForExec submission).Recorded
      (history ++ [.submitted submission]) := by
  constructor
  · have kept := (List.sublist_append_left
      (history.filterMap InterfaceEvent.handedOutBlock)
      interface.proposalBuffer).trans recorded.proposals
    simpa [VMControlInterface.submitBlockForExec, clearProposalSettings,
      List.filterMap_cons, InterfaceEvent.handedOutBlock,
      InterfaceEvent.producedBlock] using kept
  · simp only [VMControlInterface.submitBlockForExec, List.filterMap_append,
      ← recorded.executions, List.filterMap_cons, List.filterMap_nil,
      InterfaceEvent.executedBlock, InterfaceEvent.submittedBlock]
    cases submission <;> simp
  · intro blockId logged
    exact List.mem_append_left _ (recorded.committed blockId logged)
  · simpa [VMControlInterface.submitBlockForExec, clearProposalSettings,
      InterfaceEvent.replay] using recorded.replayed
  · exact recorded.justified.concat trivial

theorem Recorded.logCommitment (recorded : interface.Recorded history)
    (blockId : VMBlockID) :
    (interface.logCommitment blockId).Recorded
      (history ++ [.logged blockId]) := by
  have logs : interface.Recorded (history ++ [.logged blockId]) := by
    constructor
    · simpa [List.filterMap_cons, InterfaceEvent.handedOutBlock,
        InterfaceEvent.producedBlock] using recorded.proposals
    · simpa [List.filterMap_cons, InterfaceEvent.executedBlock,
        InterfaceEvent.submittedBlock] using recorded.executions
    · intro other logged
      exact List.mem_append_left _ (recorded.committed other logged)
    · simpa [InterfaceEvent.replay] using recorded.replayed
    · exact recorded.justified.concat trivial
  unfold VMControlInterface.logCommitment
  split
  · refine ⟨logs.proposals, logs.executions, ?_, logs.replayed,
      logs.justified⟩
    intro other logged
    obtain rfl := Option.some.inj logged
    simp
  · exact logs

/-! ### A round of the VM -/

/-- Executing the waiting blocks one after the other. -/
theorem foldl_validateBlock (blocks : List (Option VMBlock)) (vm : VMState) :
    blocks.foldl validateBlock vm =
      ((blocks.filterMap id).map InterfaceEvent.executed).foldl
        InterfaceEvent.replay vm := by
  induction blocks generalizing vm with
  | nil => rfl
  | cons block blocks ih =>
      rw [List.foldl_cons, ih]
      cases block <;> rfl

theorem Recorded.validateBlocks (recorded : interface.Recorded history) :
    interface.validateBlocks.Recorded (history ++
      (interface.blocksToValidate.filterMap id).map .executed) := by
  have executed (blocks : List VMBlock) :
      (blocks.map InterfaceEvent.executed).filterMap
          InterfaceEvent.executedBlock = blocks ∧
        (blocks.map InterfaceEvent.executed).filterMap
          InterfaceEvent.submittedBlock = [] ∧
        (blocks.map InterfaceEvent.executed).filterMap
          InterfaceEvent.handedOutBlock = [] ∧
        (blocks.map InterfaceEvent.executed).filterMap
          InterfaceEvent.producedBlock = [] := by
    simp [List.filterMap_map, Function.comp_def, InterfaceEvent.executedBlock,
      InterfaceEvent.submittedBlock, InterfaceEvent.handedOutBlock,
      InterfaceEvent.producedBlock]
  obtain ⟨executes, submits, hands, produces⟩ :=
    executed (interface.blocksToValidate.filterMap id)
  constructor
  · rw [List.filterMap_append, List.filterMap_append, hands, produces,
      List.append_nil, List.append_nil]
    exact recorded.proposals
  · rw [List.filterMap_append, List.filterMap_append, executes, submits,
      List.append_nil, ← recorded.executions]
    exact List.append_nil _
  · intro blockId logged
    exact List.mem_append_left _ (recorded.committed blockId logged)
  · rw [List.foldl_append, ← recorded.replayed]
    exact foldl_validateBlock interface.blocksToValidate interface.vmInstance
  · exact recorded.justified.append_executed _

theorem Recorded.logHighestCommitted (recorded : interface.Recorded history)
    (validated : interface.blocksToValidate = []) :
    interface.logHighestCommitted.Recorded (history ++
      interface.highestCommittedId.toList.map .received) := by
  cases logged : interface.highestCommittedId with
  | none => simpa [VMControlInterface.logHighestCommitted, logged] using
      recorded
  | some blockId =>
      have settled : history.filterMap InterfaceEvent.executedBlock =
          history.filterMap InterfaceEvent.submittedBlock := by
        rw [← recorded.executions, validated]
        simp
      simp only [VMControlInterface.logHighestCommitted, logged,
        Option.toList_some, List.map_cons, List.map_nil]
      constructor
      · simpa [List.filterMap_cons, InterfaceEvent.handedOutBlock,
          InterfaceEvent.producedBlock] using recorded.proposals
      · simpa [List.filterMap_cons, InterfaceEvent.executedBlock,
          InterfaceEvent.submittedBlock] using recorded.executions
      · intro other pending
        cases pending
      · simp [InterfaceEvent.replay, recorded.replayed]
      · exact recorded.justified.concat
          ⟨recorded.committed blockId logged, settled⟩

theorem Recorded.makeProposal (recorded : interface.Recorded history)
    {after : VMControlInterface} (made : interface.makeProposal = .ok after) :
    after.Recorded (history ++
      if interface.additionalProposalRequests > 0 then
        [.produced (VMBase.propose interface.vmInstance).1]
      else []) := by
  rcases makeProposal_ok made with ⟨none, rfl⟩ | ⟨requests, count, rfl⟩
  · simpa [none] using recorded
  · rw [if_pos (by omega)]
    constructor
    · have appended := recorded.proposals.append_right
        [(VMBase.propose interface.vmInstance).1]
      simpa [List.filterMap_cons, InterfaceEvent.handedOutBlock,
        InterfaceEvent.producedBlock] using appended
    · simpa [List.filterMap_cons, InterfaceEvent.executedBlock,
        InterfaceEvent.submittedBlock] using recorded.executions
    · intro blockId logged
      exact List.mem_append_left _ (recorded.committed blockId logged)
    · simp [InterfaceEvent.replay, recorded.replayed]
    · apply recorded.justified.concat
      rw [InterfaceEvent.Follows, ← recorded.replayed]

end VMControlInterface

/-! ### Every interleaving -/

namespace InterfaceRun

variable {Thread : Type} {run : InterfaceRun Thread} {limit : Nat}

/-- A caller that waits holds the lock, and a proposal is on its way to it. -/
structure Consistent (run : InterfaceRun Thread) (limit : Nat) : Prop where
  alive : run.vmThreadFailed = none
  bounded : run.interface.Bounded limit
  polite : run.interface.Polite
  lock : run.bridgeLock.holders = run.waiting.toList
  awaited : run.waiting.isSome = true → run.interface.isProposer = true ∧
    0 < run.interface.proposalBuffer.length +
      run.interface.additionalProposalRequests
  recorded : run.interface.Recorded run.history

theorem consistent_init (configs : HotstuffConfigs) :
    (init configs : InterfaceRun Thread).Consistent
      configs.proposalBufferTarget where
  alive := rfl
  bounded := VMControlInterface.bounded_init configs
  polite := VMControlInterface.polite_init configs
  lock := rfl
  awaited := by
    intro waits
    cases waits
  recorded := VMControlInterface.recorded_init configs

/-- The lock is free when nobody waits. -/
theorem Consistent.nobody_waits (consistent : run.Consistent limit)
    {caller : Thread}
    (allowed : run.bridgeLock.CanLock .nonrecursive caller) :
    run.waiting = none := by
  rcases allowed with free | ⟨recursive, -⟩
  · rw [consistent.lock, Option.toList_eq_nil_iff] at free
    exact free
  · cases recursive

theorem Consistent.getProposal (consistent : run.Consistent limit)
    {caller : Thread}
    (allowed : run.bridgeLock.CanLock .nonrecursive caller) :
    (run.getProposal caller).Consistent limit := by
  have nobody := consistent.nobody_waits allowed
  have free : run.bridgeLock.holders = [] := by
    rw [consistent.lock, nobody]
    rfl
  have bounded := consistent.bounded.getProposal
  unfold InterfaceRun.getProposal
  rcases run.interface.getProposal_eq with
    result |
      ⟨proposing, ⟨-, positive, result⟩ | ⟨proposal, later, buffered, result⟩⟩
  · rw [result]
    refine ⟨consistent.alive, consistent.bounded, consistent.polite, free,
      ?_, ?_⟩
    · intro waits
      cases waits
    · simpa [answer] using consistent.recorded
  · rw [result] at bounded ⊢
    refine ⟨consistent.alive, bounded, fun _ => proposing, ?_, ?_, ?_⟩
    · change caller :: run.bridgeLock.holders = [caller]
      rw [free]
    · intro _
      refine ⟨proposing, ?_⟩
      simp only
      omega
    · exact consistent.recorded.requests _ _ _
  · rw [result] at bounded ⊢
    refine ⟨consistent.alive, bounded,
      VMControlInterface.polite_takeProposal proposing buffered, free, ?_, ?_⟩
    · intro waits
      cases waits
    · exact consistent.recorded.handOut buffered

theorem Consistent.wakeUp (consistent : run.Consistent limit)
    (allowed : run.Enabled .wakeUp) :
    (run.next .wakeUp).Consistent limit := by
  obtain ⟨waits, nonempty⟩ := allowed
  obtain ⟨proposing, -⟩ := consistent.awaited waits
  obtain ⟨caller, waiter⟩ := Option.isSome_iff_exists.mp waits
  cases buffered : run.interface.proposalBuffer with
  | nil =>
      rw [buffered] at nonempty
      cases nonempty
  | cons proposal later =>
      have taken : run.interface.takeProposal.1 = some proposal := by
        rw [VMControlInterface.takeProposal_eq buffered]
      refine ⟨consistent.alive, consistent.bounded.takeProposal buffered,
        VMControlInterface.polite_takeProposal proposing buffered, ?_, ?_, ?_⟩
      · change run.bridgeLock.holders.tail = []
        rw [consistent.lock, waiter]
        rfl
      · intro waitsAgain
        cases waitsAgain
      · rw [InterfaceRun.next, answer, taken]
        exact consistent.recorded.handOut buffered

theorem Consistent.runVm (consistent : run.Consistent limit) :
    run.runVm.Consistent limit := by
  obtain ⟨after, ran, sameMode, fewer, sameSum⟩ := consistent.polite.run
  have bounded := consistent.bounded.settle.makeProposal ran
  have recorded := (consistent.recorded.validateBlocks.logHighestCommitted
    rfl).makeProposal ran
  have result : run.runVm =
      { run with interface := after }.record (roundEvents run.interface) := by
    rw [InterfaceRun.runVm, ran]
  rw [result]
  refine ⟨consistent.alive, bounded, ?_, consistent.lock, ?_, ?_⟩
  · intro requested
    change after.isProposer = true
    rw [sameMode]
    exact consistent.polite (Nat.lt_of_lt_of_le requested fewer)
  · intro waits
    obtain ⟨proposing, pending⟩ := consistent.awaited waits
    refine ⟨sameMode.trans proposing, ?_⟩
    change 0 < after.proposalBuffer.length + after.additionalProposalRequests
    rw [sameSum]
    exact pending
  · rw [List.append_assoc, List.append_assoc] at recorded
    change after.Recorded (run.history ++ roundEvents run.interface)
    rw [roundEvents, List.append_assoc]
    exact recorded

theorem Consistent.next (consistent : run.Consistent limit)
    {action : Action Thread} (allowed : run.Enabled action) :
    (run.next action).Consistent limit := by
  cases action with
  | setProposer =>
      refine ⟨consistent.alive, ⟨consistent.bounded.target,
        consistent.bounded.sum⟩, fun _ => rfl, consistent.lock, ?_, ?_⟩
      · intro waits
        exact ⟨rfl, (consistent.awaited waits).2⟩
      · exact consistent.recorded.requests _ _ _
  | getProposal caller => exact consistent.getProposal allowed
  | wakeUp => exact consistent.wakeUp allowed
  | submitBlockForExec caller submission =>
      have nobody := consistent.nobody_waits allowed
      refine ⟨consistent.alive, ⟨consistent.bounded.target, Nat.zero_le _⟩,
        ?_, consistent.lock, ?_, ?_⟩
      · intro requested
        exact (Nat.lt_irrefl 0 requested).elim
      · intro waits
        change run.waiting.isSome = true at waits
        rw [nobody] at waits
        cases waits
      · exact consistent.recorded.submitBlockForExec submission
  | logCommitment blockId =>
      have recorded := consistent.recorded.logCommitment blockId
      obtain ⟨slot, result⟩ := run.interface.logCommitment_eq blockId
      rw [InterfaceRun.next, result]
      rw [result] at recorded
      exact ⟨consistent.alive, ⟨consistent.bounded.target,
        consistent.bounded.sum⟩, consistent.polite, consistent.lock,
        consistent.awaited, recorded⟩
  | stopProposals =>
      exact ⟨consistent.alive, ⟨Nat.zero_le _, consistent.bounded.sum⟩,
        consistent.polite, consistent.lock, consistent.awaited,
        consistent.recorded.requests _ _ _⟩
  | run => exact consistent.runVm

theorem consistent_of_reachable {configs : HotstuffConfigs}
    (reachable : (interfaceSystem Thread configs).Reachable run) :
    run.Consistent configs.proposalBufferTarget := by
  refine reachable.invariant
    (fun run => run.Consistent configs.proposalBufferTarget) ?_ ?_
  · rintro start rfl
    exact consistent_init configs
  · intro before action _ consistent allowed
    exact consistent.next allowed

/-- The requests for a buffer with `size` proposals, as the `size_t` that the
source computes. -/
def refill (size target : UInt64) : UInt64 :=
  if size > target then 0 else target - size

/-- What holds at the interface for an initial target.  The history is tied to
the VM: replaying what it says of the VM's work gives the state of the VM. -/
structure Safe (run : InterfaceRun Thread) (target : UInt64) : Prop where
  requestsInMode : 0 < run.interface.additionalProposalRequests →
    run.interface.isProposer = true
  neverThrows : run.vmThreadFailed = none ∧
    ∃ after, run.interface.run = .ok after
  bounded : run.interface.proposalBuffer.length +
    run.interface.additionalProposalRequests ≤ target.toNat
  refillExact : ∀ size < run.interface.proposalBuffer.length,
    (refill (UInt64.ofNat size)
      (UInt64.ofNat run.interface.proposalBufferTarget)).toNat =
        if size > run.interface.proposalBufferTarget then 0
        else run.interface.proposalBufferTarget - size
  decrementExact : 0 < run.interface.additionalProposalRequests →
    (UInt64.ofNat run.interface.additionalProposalRequests - 1).toNat =
      run.interface.additionalProposalRequests - 1
  noLostWakeUp : run.waiting.isSome = true →
    run.interface.proposalBuffer ≠ [] ∨
      0 < run.interface.additionalProposalRequests ∧
        run.interface.existsWorkToDo = true
  vmReplays : run.interface.vmInstance =
    run.history.foldl InterfaceEvent.replay VMBase.initClean
  producedByVm : ∀ before block after,
    run.history = before ++ .produced block :: after →
      block = (VMBase.propose
        (before.foldl InterfaceEvent.replay VMBase.initClean)).1
  handedOutInOrder :
    (run.history.filterMap InterfaceEvent.handedOutBlock ++
      run.interface.proposalBuffer).Sublist
        (run.history.filterMap InterfaceEvent.producedBlock)
  executedInOrder : run.history.filterMap InterfaceEvent.executedBlock ++
    run.interface.blocksToValidate.filterMap id =
      run.history.filterMap InterfaceEvent.submittedBlock
  executedFirst : ∀ before blockId after,
    run.history = before ++ .received blockId :: after →
      .logged blockId ∈ before ∧
        before.filterMap InterfaceEvent.executedBlock =
          before.filterMap InterfaceEvent.submittedBlock

omit [VMBase] in
theorem refill_toNat {size target : Nat} (smallSize : size < 2 ^ 64)
    (smallTarget : target < 2 ^ 64) :
    (refill (UInt64.ofNat size) (UInt64.ofNat target)).toNat =
      if size > target then 0 else target - size := by
  have sizeEq : (UInt64.ofNat size).toNat = size :=
    UInt64.toNat_ofNat_of_lt' smallSize
  have targetEq : (UInt64.ofNat target).toNat = target :=
    UInt64.toNat_ofNat_of_lt' smallTarget
  have compared : UInt64.ofNat size > UInt64.ofNat target ↔ size > target := by
    rw [gt_iff_lt, UInt64.lt_iff_toNat_lt, sizeEq, targetEq]
  unfold refill
  split
  · rename_i larger
    rw [if_pos (compared.mp larger)]
    rfl
  · rename_i notLarger
    have below : ¬ size > target := fun larger =>
      notLarger (compared.mpr larger)
    rw [if_neg below, UInt64.toNat_sub_of_le, sizeEq, targetEq]
    rw [UInt64.le_iff_toNat_le, sizeEq, targetEq]
    omega

omit [VMBase] in
theorem decrement_toNat {requests : Nat} (positive : 0 < requests)
    (small : requests < 2 ^ 64) :
    (UInt64.ofNat requests - 1).toNat = requests - 1 := by
  have requestsEq : (UInt64.ofNat requests).toNat = requests :=
    UInt64.toNat_ofNat_of_lt' small
  rw [UInt64.toNat_sub_of_le, requestsEq]
  · rfl
  · rw [UInt64.le_iff_toNat_le, requestsEq]
    exact positive

end InterfaceRun

/-- In every interleaving, for every target and refill setting, the VM thread
has a reason to wake up, requests stay within the target, no caller waits in
vain, the VM has executed, received and produced what the history says, and
blocks and proposals keep their order. -/
theorem interface_runs_safe {Thread : Type} {target : UInt64}
    {immediatelyRefill : Bool} {run : InterfaceRun Thread}
    (reachable : (interfaceSystem Thread
      ⟨target.toNat, immediatelyRefill⟩).Reachable run) :
    run.Safe target := by
  have consistent := InterfaceRun.consistent_of_reachable reachable
  have bounded : run.interface.Bounded target.toNat := consistent.bounded
  have recorded := consistent.recorded
  have large : target.toNat < 2 ^ 64 := target.toNat_lt
  have sum := bounded.sum
  have targetBound := bounded.target
  obtain ⟨after, ran, -⟩ := consistent.polite.run
  refine ⟨consistent.polite, ⟨consistent.alive, after, ran⟩, sum, ?_, ?_, ?_,
    recorded.replayed, ?_, recorded.proposals, recorded.executions, ?_⟩
  · intro size smaller
    exact InterfaceRun.refill_toNat (by omega) (by omega)
  · intro requested
    exact InterfaceRun.decrement_toNat requested (by omega)
  · intro waits
    obtain ⟨proposing, pending⟩ := consistent.awaited waits
    by_cases empty : run.interface.proposalBuffer = []
    · right
      rw [empty, List.length_nil, Nat.zero_add] at pending
      refine ⟨pending, ?_⟩
      simp [VMControlInterface.existsWorkToDo, pending, proposing]
    · exact .inl empty
  · intro before block after split
    exact recorded.justified before (.produced block) after split
  · intro before blockId after split
    exact recorded.justified before (.received blockId) after split

end Runs

/-! ### A caller that waits while proposals are stopped -/

namespace Symbolic

open InterfaceRun in
/-- One caller waits when proposals are stopped, and is served by the request
that was made before.  Then a block is submitted and committed. -/
def stoppedWhileWaiting : List (Action Bool) :=
  [.setProposer, .getProposal true, .stopProposals, .run, .wakeUp,
    .submitBlockForExec false (some (9 : UInt8)), .logCommitment (some [9]), .run]

instance decidableInterfaceSystem (configs : HotstuffConfigs)
    (run : InterfaceRun Bool) :
    (action : InterfaceRun.Action Bool) →
      Decidable ((interfaceSystem Bool configs).enabled run action)
  | .setProposer => inferInstanceAs (Decidable True)
  | .getProposal _ => inferInstanceAs (Decidable (Mutex.CanLock _ _ _))
  | .wakeUp => inferInstanceAs (Decidable (_ ∧ _))
  | .submitBlockForExec _ _ => inferInstanceAs (Decidable (Mutex.CanLock _ _ _))
  | .logCommitment _ => inferInstanceAs (Decidable True)
  | .stopProposals => inferInstanceAs (Decidable True)
  | .run => inferInstanceAs (Decidable (_ ∧ _))

end Symbolic

open scoped Symbolic in
open Symbolic in
theorem interface_runs_safe_stopped :
    let system := interfaceSystem Bool ⟨(3 : UInt64).toNat, true⟩
    let run := system.run (.init ⟨3, true⟩) stoppedWhileWaiting
    run.history.length = 6 ∧
      (run.history.filterMap InterfaceEvent.handedOutBlock).length = 1 ∧
      run.Safe 3 := by
  intro system run
  have reachable : system.Reachable run := by
    refine .run (.initial rfl) ?_
    decide +kernel
  refine ⟨?_, ?_, interface_runs_safe reachable⟩ <;> decide +kernel

end Hotstuff
