import Hotstuff.WireFormat

/-!
# The asynchronous VM interface

`VMBase` is the replicated state machine behind hotstuff, which the application
supplies.  `VMControlInterface` buffers the requests to it: decided blocks wait
in `blocks_to_validate`, a committed id waits to be logged, and proposals are
made ahead of time into `proposal_buffer`.  A thread of its own runs the VM.

Every method runs under one mutex, which is only released while a method waits.
So each method is one step, `get_proposal` two: up to its wait, and after it.
One round of `run` holds the mutex throughout.
-/

namespace Hotstuff

/-- The bytes of a VM block's id; null for an empty or unparseable block. -/
abbrev VMBlockID := Option (List UInt8)

/-- A replicated state machine with speculative execution. -/
class VMBase where
  VMBlock : Type
  VMState : Type
  getId : VMBlock → VMBlockID
  serialize : VMBlock → Body
  tryParse : Body → Option VMBlock
  initClean : VMState
  propose : VMState → VMBlock × VMState
  execBlock : VMState → VMBlock → VMState
  logCommitment : VMState → VMBlockID → VMState
  rewindToLastCommit : VMState → VMState

export VMBase (VMBlock VMState)

/-- `HotstuffConfigs` -/
structure HotstuffConfigs where
  proposalBufferTarget : Nat
  immediatelyRefillProposalBuffer : Bool

variable [VMBase]

def VMBase.nonemptyBlockId (blk : VMBlock) : VMBlockID := VMBase.getId blk

def VMBase.emptyBlockId : VMBlockID := none

structure VMControlInterface where
  vmInstance : VMState
  configs : HotstuffConfigs
  /-- the target in force: `stop_proposals` sets it to zero -/
  proposalBufferTarget : Nat
  blocksToValidate : List (Option VMBlock)
  proposalBuffer : List VMBlock
  additionalProposalRequests : Nat
  isProposer : Bool
  highestCommittedId : Option VMBlockID

/-- `get_proposal` either answers at once or waits for the buffer. -/
inductive ProposalAnswer
  | answer (proposal : Option VMBlock)
  | wait

namespace VMControlInterface

/-- After construction and `init_clean`. -/
def init (configs : HotstuffConfigs) : VMControlInterface where
  vmInstance := VMBase.initClean
  configs := configs
  proposalBufferTarget := configs.proposalBufferTarget
  blocksToValidate := []
  proposalBuffer := []
  additionalProposalRequests := 0
  isProposer := false
  highestCommittedId := none

def existsWorkToDo (interface : VMControlInterface) : Bool :=
  decide (interface.blocksToValidate.length > 0) ||
    (decide (interface.additionalProposalRequests > 0) &&
      interface.isProposer) ||
    interface.highestCommittedId.isSome

/-! ### The hotstuff side -/

def setProposer (interface : VMControlInterface) : VMControlInterface :=
  { interface with isProposer := true }

def stopProposals (interface : VMControlInterface) : VMControlInterface :=
  { interface with proposalBufferTarget := 0 }

/-- The end of `get_proposal`: take the oldest proposal and ask for more. -/
def takeProposal (interface : VMControlInterface) :
    Option VMBlock × VMControlInterface :=
  match interface.proposalBuffer with
  | [] => (none, interface)
  | out :: rest =>
      (some out,
        { interface with
          proposalBuffer := rest
          additionalProposalRequests :=
            if interface.configs.immediatelyRefillProposalBuffer then
              if rest.length > interface.proposalBufferTarget then 0
              else interface.proposalBufferTarget - rest.length
            else interface.additionalProposalRequests })

/-- `get_proposal` up to its wait. -/
def getProposal (interface : VMControlInterface) :
    ProposalAnswer × VMControlInterface :=
  if !interface.isProposer then (.answer none, interface)
  else if interface.proposalBuffer.isEmpty then
    let requested :=
      { interface with
        additionalProposalRequests :=
          if interface.additionalProposalRequests <
              interface.proposalBufferTarget then
            interface.proposalBufferTarget
          else interface.additionalProposalRequests }
    if interface.proposalBufferTarget = 0 then (.answer none, requested)
    else (.wait, requested)
  else (.answer interface.takeProposal.1, interface.takeProposal.2)

def clearProposalSettings (interface : VMControlInterface) :
    VMControlInterface :=
  { interface with
    isProposer := false
    proposalBuffer := []
    additionalProposalRequests := 0 }

/-- `submit_block_for_exec` after its wait. -/
def submitBlockForExec (interface : VMControlInterface)
    (submission : Option VMBlock) : VMControlInterface :=
  { interface.clearProposalSettings with
    blocksToValidate := interface.blocksToValidate ++ [submission] }

/-- `log_commitment` after its wait. -/
def logCommitment (interface : VMControlInterface) (blockId : VMBlockID) :
    VMControlInterface :=
  if blockId.isSome then
    { interface with highestCommittedId := some blockId }
  else interface

/-- `finish_work_and_force_rewind` after its wait. -/
def forceRewind (interface : VMControlInterface) : VMControlInterface :=
  { interface with
    vmInstance := VMBase.rewindToLastCommit interface.vmInstance }

/-! ### The VM side -/

/-- A null block is the result of a failed parse: the VM does nothing. -/
def validateBlock (vmInstance : VMState) (block : Option VMBlock) : VMState :=
  match block with
  | none => vmInstance
  | some block => VMBase.execBlock vmInstance block

def validateBlocks (interface : VMControlInterface) : VMControlInterface :=
  { interface with
    vmInstance :=
      interface.blocksToValidate.foldl validateBlock interface.vmInstance
    blocksToValidate := [] }

def logHighestCommitted (interface : VMControlInterface) : VMControlInterface :=
  match interface.highestCommittedId with
  | none => interface
  | some blockId =>
      { interface with
        vmInstance := VMBase.logCommitment interface.vmInstance blockId
        highestCommittedId := none }

def makeProposal (interface : VMControlInterface) :
    Except String VMControlInterface :=
  if interface.additionalProposalRequests > 0 then
    if !interface.isProposer then .error "vm thread woke up early"
    else
      let proposed := VMBase.propose interface.vmInstance
      .ok
        { interface with
          vmInstance := proposed.2
          proposalBuffer := interface.proposalBuffer ++ [proposed.1]
          additionalProposalRequests :=
            interface.additionalProposalRequests - 1 }
  else .ok interface

/-- One round of the loop of `run`. -/
def run (interface : VMControlInterface) : Except String VMControlInterface :=
  interface.validateBlocks.logHighestCommitted.makeProposal

/-! ### What the methods do -/

variable {interface : VMControlInterface}

/-- The requests after `get_proposal` has left `size` proposals. -/
def refilled (interface : VMControlInterface) (size : Nat) : Nat :=
  if interface.configs.immediatelyRefillProposalBuffer then
    if size > interface.proposalBufferTarget then 0
    else interface.proposalBufferTarget - size
  else interface.additionalProposalRequests

theorem takeProposal_eq {proposal : VMBlock} {later : List VMBlock}
    (buffered : interface.proposalBuffer = proposal :: later) :
    interface.takeProposal = (some proposal,
      { interface with
        proposalBuffer := later
        additionalProposalRequests := interface.refilled later.length }) := by
  unfold takeProposal
  rw [buffered]
  rfl

/-- `get_proposal` answers null, asks for proposals and waits, or takes the
oldest buffered proposal. -/
theorem getProposal_eq (interface : VMControlInterface) :
    interface.getProposal = (.answer none, interface) ∨
      interface.isProposer = true ∧
        (interface.proposalBuffer = [] ∧ 0 < interface.proposalBufferTarget ∧
            interface.getProposal = (.wait,
              { interface with
                additionalProposalRequests :=
                  max interface.additionalProposalRequests
                    interface.proposalBufferTarget }) ∨
          ∃ proposal later, interface.proposalBuffer = proposal :: later ∧
            interface.getProposal =
              (.answer (some proposal), interface.takeProposal.2)) := by
  by_cases proposing : interface.isProposer = true
  · cases buffered : interface.proposalBuffer with
    | nil =>
        by_cases stopped : interface.proposalBufferTarget = 0
        · left
          unfold getProposal
          simp only [proposing, buffered, stopped, Bool.not_true,
            Bool.false_eq_true, List.isEmpty_nil, Nat.not_lt_zero, if_false,
            if_true]
          rw [← proposing, ← buffered, ← stopped]
        · refine .inr ⟨proposing, .inl ⟨rfl, Nat.pos_of_ne_zero stopped, ?_⟩⟩
          have larger : (if interface.additionalProposalRequests <
                interface.proposalBufferTarget then
              interface.proposalBufferTarget
            else interface.additionalProposalRequests) =
              max interface.additionalProposalRequests
                interface.proposalBufferTarget := by
            split <;> omega
          unfold getProposal
          rw [if_neg (by simp [proposing]), if_pos (by simp [buffered])]
          simp only [if_neg stopped, larger, ← buffered]
    | cons proposal later =>
        refine .inr ⟨proposing, .inr ⟨proposal, later, rfl, ?_⟩⟩
        unfold getProposal
        rw [if_neg (by simp [proposing]), if_neg (by simp [buffered]),
          takeProposal_eq buffered]
  · left
    unfold getProposal
    rw [if_pos (by simpa using proposing)]

theorem takeProposal_cons {proposal : VMBlock} {later : List VMBlock}
    (buffered : interface.proposalBuffer = proposal :: later) :
    ∃ requests, interface.takeProposal = (some proposal,
      { interface with
        proposalBuffer := later
        additionalProposalRequests := requests }) :=
  ⟨_, takeProposal_eq buffered⟩

/-- The same without the number of requests. -/
theorem getProposal_cases (interface : VMControlInterface) :
    interface.getProposal = (.answer none, interface) ∨
      interface.isProposer = true ∧
        ((∃ requests, interface.getProposal = (.wait,
            { interface with additionalProposalRequests := requests })) ∨
          ∃ proposal later requests,
            interface.proposalBuffer = proposal :: later ∧
              interface.getProposal = (.answer (some proposal),
                { interface with
                  proposalBuffer := later
                  additionalProposalRequests := requests })) := by
  rcases interface.getProposal_eq with
    result | ⟨proposing, ⟨-, -, result⟩ | ⟨proposal, later, buffered, result⟩⟩
  · exact .inl result
  · exact .inr ⟨proposing, .inl ⟨_, result⟩⟩
  · rw [takeProposal_eq buffered] at result
    exact .inr ⟨proposing, .inr ⟨proposal, later, _, buffered, result⟩⟩

/-- Proposals are only requested in proposer mode. -/
def Polite (interface : VMControlInterface) : Prop :=
  0 < interface.additionalProposalRequests → interface.isProposer = true

theorem polite_init (configs : HotstuffConfigs) : (init configs).Polite := by
  intro requested
  exact absurd requested (Nat.lt_irrefl 0)

theorem Polite.idle (polite : interface.Polite)
    (idle : interface.existsWorkToDo = false) :
    interface.blocksToValidate = [] ∧
      interface.additionalProposalRequests = 0 ∧
      interface.highestCommittedId = none := by
  simp only [existsWorkToDo, Bool.or_eq_false_iff, Bool.and_eq_false_iff,
    decide_eq_false_iff_not, Nat.not_lt, Nat.le_zero,
    List.length_eq_zero_iff, Option.isSome_eq_false_iff,
    Option.isNone_iff_eq_none] at idle
  obtain ⟨⟨validated, requests⟩, logged⟩ := idle
  refine ⟨validated, ?_, logged⟩
  rcases requests with none | reserved
  · exact none
  · by_contra positive
    rw [polite (Nat.pos_of_ne_zero positive)] at reserved
    cases reserved

/-- In a polite interface the VM thread never wakes up early. -/
theorem Polite.makeProposal (polite : interface.Polite) :
    interface.additionalProposalRequests = 0 ∧
        interface.makeProposal = .ok interface ∨
      ∃ requests, interface.additionalProposalRequests = requests + 1 ∧
        interface.makeProposal = .ok
          { interface with
            vmInstance := (VMBase.propose interface.vmInstance).2
            proposalBuffer := interface.proposalBuffer ++
              [(VMBase.propose interface.vmInstance).1]
            additionalProposalRequests := requests } := by
  cases count : interface.additionalProposalRequests with
  | zero =>
      apply Or.inl
      simp [VMControlInterface.makeProposal, count]
  | succ requests =>
      have proposing := polite (by omega)
      refine Or.inr ⟨requests, rfl, ?_⟩
      simp [VMControlInterface.makeProposal, count, proposing]

theorem logHighestCommitted_frame (interface : VMControlInterface) :
    interface.logHighestCommitted.additionalProposalRequests =
        interface.additionalProposalRequests ∧
      interface.logHighestCommitted.isProposer = interface.isProposer ∧
      interface.logHighestCommitted.proposalBuffer =
        interface.proposalBuffer ∧
      interface.logHighestCommitted.blocksToValidate =
        interface.blocksToValidate ∧
      interface.logHighestCommitted.highestCommittedId = none := by
  unfold logHighestCommitted
  cases logged : interface.highestCommittedId with
  | none => exact ⟨rfl, rfl, rfl, rfl, logged⟩
  | some blockId => exact ⟨rfl, rfl, rfl, rfl, rfl⟩

/-- A bound on the rounds of `run` until the VM thread has nothing to do. -/
def pendingRounds (interface : VMControlInterface) : Nat :=
  interface.additionalProposalRequests +
    if interface.blocksToValidate.isEmpty && interface.highestCommittedId.isNone
    then 0 else 1

theorem Polite.pendingRounds_run (polite : interface.Polite)
    (busy : interface.existsWorkToDo = true) {after : VMControlInterface}
    (ran : interface.run = .ok after) :
    after.pendingRounds < interface.pendingRounds := by
  obtain ⟨sameRequests, sameMode, -, noBlocks, nothingLogged⟩ :=
    interface.validateBlocks.logHighestCommitted_frame
  have settledPolite : interface.validateBlocks.logHighestCommitted.Polite := by
    intro requested
    rw [sameMode]
    exact polite (sameRequests ▸ requested)
  have settledBlocks :
      interface.validateBlocks.logHighestCommitted.blocksToValidate = [] :=
    noBlocks
  rcases settledPolite.makeProposal with
    ⟨none, result⟩ | ⟨requests, count, result⟩
  · -- without a request, a block or a committed id was waiting
    have finished : interface.validateBlocks.logHighestCommitted = after :=
      Except.ok.inj (result.symm.trans ran)
    have noRequests : interface.additionalProposalRequests = 0 :=
      sameRequests.symm.trans none
    have waiting : (interface.blocksToValidate.isEmpty &&
        interface.highestCommittedId.isNone) = false := by
      by_contra idle
      simp only [Bool.not_eq_false, Bool.and_eq_true, List.isEmpty_iff,
        Option.isNone_iff_eq_none] at idle
      simp [existsWorkToDo, idle.1, idle.2, noRequests] at busy
    rw [← finished]
    simp [pendingRounds, settledBlocks, nothingLogged, none, waiting]
  · have finished := Except.ok.inj (result.symm.trans ran)
    have counted : interface.additionalProposalRequests = requests + 1 :=
      sameRequests.symm.trans count
    rw [← finished]
    simp only [pendingRounds, settledBlocks, nothingLogged, counted,
      List.isEmpty_nil, Option.isNone_none, Bool.and_self, if_true]
    omega

end VMControlInterface

/-! ### A concrete VM -/

namespace Symbolic

/-- The blocks a VM has executed: those committed, and those after them that it
may still have to take back. -/
structure SequenceState where
  committed : List UInt8
  speculative : List UInt8

/-- A VM whose blocks are bytes, which proposes to count on. -/
scoped instance sequenceVM : VMBase where
  VMBlock := UInt8
  VMState := SequenceState
  getId := fun block => some [block]
  serialize := fun block => [block]
  tryParse := fun body =>
    match body with
    | [block] => some block
    | _ => none
  initClean := ⟨[], []⟩
  propose := fun state =>
    let block := UInt8.ofNat
      (state.committed.length + state.speculative.length + 1)
    (block, { state with speculative := state.speculative ++ [block] })
  execBlock := fun state block => { state with speculative := [block] }
  logCommitment := fun state id =>
    let before := state.speculative.takeWhile fun block => some [block] ≠ id
    let rest := state.speculative.dropWhile fun block => some [block] ≠ id
    { committed := state.committed ++ before ++ rest.take 1
      speculative := rest.tail }
  rewindToLastCommit := fun state => { state with speculative := [] }

/-- The default configuration. -/
def defaultConfigs : HotstuffConfigs where
  proposalBufferTarget := 3
  immediatelyRefillProposalBuffer := true

end Symbolic

end Hotstuff
