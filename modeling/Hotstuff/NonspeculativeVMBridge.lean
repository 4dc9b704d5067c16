import Hotstuff.BridgeLocking
import Hotstuff.DecidedIndex
import Mathlib.Data.List.ReduceOption

/-!
# Execution without speculation

`NonspeculativeVMBridge` executes a decided block at once.  A body that the VM
cannot parse, such as the empty body of an empty proposal, gives a null block,
which `apply_block` dereferences after it has recorded the block in the index.

The speculative bridge submits null blocks too, but its VM thread skips them.
So a replica that never proposes executes exactly the bodies that can be parsed,
in commit order, and the two bridges agree exactly on the logs all of whose
bodies can be parsed.
-/

namespace Hotstuff

/-- A VM that knows the blocks passed to `exec_block`, first block first. -/
class ExecutionLog [VMBase] where
  executed : VMState → List VMBlock
  executed_initClean : executed VMBase.initClean = []
  executed_execBlock : ∀ (vm : VMState) (block : VMBlock),
    executed (VMBase.execBlock vm block) = executed vm ++ [block]
  executed_logCommitment : ∀ (vm : VMState) (id : VMBlockID),
    executed (VMBase.logCommitment vm id) = executed vm

export ExecutionLog (executed executed_initClean executed_execBlock
  executed_logCommitment)

/-- Any VM, with a list of the executed blocks beside its state. -/
@[reducible]
def VMBase.logged (vm : VMBase) : VMBase where
  VMBlock := vm.VMBlock
  VMState := vm.VMState × List vm.VMBlock
  getId := vm.getId
  serialize := vm.serialize
  tryParse := vm.tryParse
  initClean := (vm.initClean, [])
  propose := fun state =>
    ((vm.propose state.1).1, (vm.propose state.1).2, state.2)
  execBlock := fun state block =>
    (vm.execBlock state.1 block, state.2 ++ [block])
  logCommitment := fun state id => (vm.logCommitment state.1 id, state.2)
  rewindToLastCommit := fun state => (vm.rewindToLastCommit state.1, state.2)

/-- The list of a logged VM is its execution log. -/
@[reducible]
def VMBase.executionLog (vm : VMBase) : @ExecutionLog vm.logged :=
  @ExecutionLog.mk vm.logged Prod.snd rfl (fun _ _ => rfl) (fun _ _ => rfl)

section Bridges

open HotstuffLMDB

variable [VMBase]

/-- The VM blocks of a committed sequence: the bodies that can be parsed. -/
def parsedBlocks (chain : List DecidedBlock) : List VMBlock :=
  chain.filterMap fun blk => VMBase.tryParse blk.body

theorem parsedBlocks_concat (chain : List DecidedBlock) (blk : DecidedBlock) :
    parsedBlocks (chain ++ [blk]) =
      parsedBlocks chain ++ (VMBase.tryParse blk.body).toList := by
  rw [parsedBlocks, List.filterMap_append, ← parsedBlocks]
  cases parses : VMBase.tryParse blk.body <;>
    simp [parses]

namespace NonspeculativeVMBridge

variable [IndexLibraries]

/-- The state of the VM, or nothing when a null block is dereferenced, and the
transaction. -/
def applyBlock (vm : VMState) (txn : Lmdb) (blk : DecidedBlock) :
    Option VMState × Lmdb :=
  let blkValue := VMBase.tryParse blk.body
  let blkId := HotstuffVMBridge.getBlockId blkValue
  let recorded := addDecidedBlock txn blk.height blk.hash blkId
  match blkValue with
  | none => (none, recorded)
  | some value => (some (VMBase.execBlock vm value), recorded)

/-- Apply the committed blocks, first block first. -/
def applyBlocks (vm : VMState) (txn : Lmdb) :
    List DecidedBlock → Option VMState × Lmdb
  | [] => (some vm, txn)
  | blk :: rest =>
      match applyBlock vm txn blk with
      | (none, recorded) => (none, recorded)
      | (some after, recorded) => applyBlocks after recorded rest

/-- Without null blocks every block is recorded and executed. -/
theorem applyBlocks_of_parsed [ExecutionLog] (vm : VMState) (txn : Lmdb)
    {chain : List DecidedBlock} (parsed : ∀ blk ∈ chain, blk.CarriesVmBlock) :
    ∃ after, applyBlocks vm txn chain = (some after, logChain txn chain) ∧
      executed after = executed vm ++ parsedBlocks chain := by
  induction chain generalizing vm txn with
  | nil => exact ⟨vm, rfl, (List.append_nil _).symm⟩
  | cons blk chain ih =>
      obtain ⟨first, rest⟩ := List.forall_mem_cons.mp parsed
      obtain ⟨value, parses⟩ := Option.isSome_iff_exists.mp first
      obtain ⟨after, applied, log⟩ := ih (VMBase.execBlock vm value)
        (addDecidedBlock txn blk.height blk.hash blk.id) rest
      refine ⟨after, ?_, ?_⟩
      · rw [applyBlocks, applyBlock]
        simp only [parses]
        rw [DecidedBlock.id, parses] at applied
        rw [applied, logChain, logChain, List.foldl_cons, DecidedBlock.id,
          parses]
      · rw [log, executed_execBlock, parsedBlocks, parsedBlocks,
          List.filterMap_cons, parses, List.append_assoc]
        rfl

/-- Otherwise a null block is dereferenced. -/
theorem applyBlocks_of_null (vm : VMState) (txn : Lmdb)
    {chain : List DecidedBlock} {blk : DecidedBlock} (member : blk ∈ chain)
    (null : VMBase.tryParse blk.body = none) :
    (applyBlocks vm txn chain).1 = none := by
  induction chain generalizing vm txn with
  | nil => cases member
  | cons other chain ih =>
      rw [applyBlocks, applyBlock]
      rcases List.mem_cons.mp member with rfl | later
      · simp [null]
      · cases VMBase.tryParse other.body with
        | none => rfl
        | some value => exact ih _ _ later

end NonspeculativeVMBridge

/-! ### A replica that never proposes -/

/-- The speculative bridge applies the committed blocks one after the other; the
second component holds those that it has not yet been given. -/
def followerSystem (kind : MutexKind) (configs : HotstuffConfigs)
    (chain : List DecidedBlock) :
    TransitionSystem (HotstuffVMBridge × List DecidedBlock)
      HotstuffVMBridge.Action where
  initial := fun state => state = (.init configs, chain)
  enabled := fun state action => state.1.Enabled kind action ∧
    match action with
    | .applyBlock height body => ∃ blk rest, state.2 = blk :: rest ∧
        height = blk.height.toNat ∧ body = blk.body
    | .makeEmptyProposal _ => False
    | .getAndApplyNextProposal _ => False
    | _ => True
  next := fun state action => (state.1.next action,
    match action with
    | .applyBlock _ _ => state.2.tail
    | _ => state.2)

/-- All blocks have been applied, and the VM thread has nothing to do. -/
def Followed (state : HotstuffVMBridge × List DecidedBlock) : Prop :=
  state.2 = [] ∧ state.1.eventThread = .idle ∧
    state.1.vmInterface.existsWorkToDo = false

namespace EventThread

/-- The block on its way to the VM thread. -/
def inFlight : EventThread → List VMBlock
  | .compare _ value | .addPair _ value => value.toList
  | .awaitSubmit _ value | .submit _ value => value.toList
  | _ => []

/-- The steps until the block is committed, when nothing is speculated. -/
def stepsLeft : EventThread → Nat
  | .compare _ _ => 7
  | .addPair _ _ => 6
  | .awaitSubmit _ _ => 5
  | .submit _ _ => 4
  | .applied _ => 3
  | .awaitLog _ => 2
  | .logCommitment _ => 1
  | _ => 0

end EventThread

variable [ExecutionLog]

namespace VMControlInterface

/-- The blocks executed so far, and those waiting to be. -/
def scheduled (interface : VMControlInterface) : List VMBlock :=
  executed interface.vmInstance ++ interface.blocksToValidate.reduceOption

theorem executed_validateBlocks (vm : VMState)
    (blocks : List (Option VMBlock)) :
    executed (blocks.foldl validateBlock vm) =
      executed vm ++ blocks.reduceOption := by
  induction blocks generalizing vm with
  | nil => simp [List.reduceOption]
  | cons block blocks ih =>
      rw [List.foldl_cons, ih]
      cases block with
      | none => rw [List.reduceOption_cons_of_none]; rfl
      | some block =>
          rw [validateBlock, executed_execBlock,
            List.reduceOption_cons_of_some, List.append_assoc]
          rfl

/-- Without requests for proposals, a round of the VM thread only executes what
is scheduled. -/
theorem scheduled_run {interface after : VMControlInterface}
    (noRequests : interface.additionalProposalRequests = 0)
    (ran : interface.run = .ok after) :
    after.scheduled = interface.scheduled ∧
      after.additionalProposalRequests = 0 := by
  obtain ⟨sameRequests, -, -, sameBlocks, -⟩ :=
    interface.validateBlocks.logHighestCommitted_frame
  have requests :
      interface.validateBlocks.logHighestCommitted.additionalProposalRequests =
        0 := sameRequests.trans noRequests
  have result : interface.validateBlocks.logHighestCommitted = after := by
    rw [run, makeProposal, if_neg (by omega)] at ran
    exact Except.ok.inj ran
  have blocks : after.blocksToValidate = [] := result ▸ sameBlocks
  have log : executed after.vmInstance =
      executed interface.validateBlocks.vmInstance := by
    rw [← result, logHighestCommitted]
    cases interface.validateBlocks.highestCommittedId with
    | none => rfl
    | some blockId => exact executed_logCommitment _ _
  refine ⟨?_, result ▸ requests⟩
  rw [scheduled, blocks, log]
  simp only [List.reduceOption, List.filterMap_nil, List.append_nil]
  exact executed_validateBlocks _ _

end VMControlInterface

namespace HotstuffVMBridge

omit [ExecutionLog] in
/-- The speculation map when that many blocks have been applied: it holds the
block that is being applied, and nothing else. -/
def AtHeight (bridge : HotstuffVMBridge) (count : Nat) : Prop :=
  match bridge.eventThread with
  | .idle | .awaitLog _ | .logCommitment _ =>
      bridge.speculationMap.heightMap = [] ∧
        bridge.speculationMap.highestCommittedHeight = count
  | .compare height _ | .addPair height _ =>
      bridge.speculationMap.heightMap = [] ∧
        height = bridge.speculationMap.highestCommittedHeight + 1 ∧
        height = count
  | .awaitSubmit height _ | .submit height _ | .applied height =>
      bridge.speculationMap.heightMap ≠ [] ∧
        bridge.speculationMap.heightMap.tail = [] ∧
        height = bridge.speculationMap.highestCommittedHeight + 1 ∧
        height = count
  | _ => False

/-- What holds while a committed chain is followed, after the given blocks. -/
structure Following (bridge : HotstuffVMBridge) (done : List DecidedBlock) :
    Prop where
  sound : bridge.Sound
  contiguous : bridge.speculationMap.Contiguous
  quiet : bridge.proposerThread = .idle
  noRequests : bridge.vmInterface.additionalProposalRequests = 0
  blocks : bridge.vmInterface.scheduled ++ bridge.eventThread.inFlight =
    parsedBlocks done
  atHeight : bridge.AtHeight done.length

variable {kind : MutexKind} {bridge : HotstuffVMBridge}
  {done : List DecidedBlock}

theorem following_init (configs : HotstuffConfigs) :
    (init configs).Following [] where
  sound := sound_init configs
  contiguous := SpeculativeExecGadget.contiguous_init
  quiet := rfl
  noRequests := rfl
  blocks := by
    change executed VMBase.initClean ++ [] ++ [] = []
    rw [executed_initClean]
    rfl
  atHeight := ⟨rfl, rfl⟩

theorem Following.eventMove (following : bridge.Following done)
    {after : HotstuffVMBridge} (allowed : bridge.Enabled kind .events)
    (result : bridge.eventStep = after) : after.Following done := by
  have sound : after.Sound := result ▸ following.sound.next allowed
  have move : EventMove kind bridge after := result ▸ eventMove_of_enabled allowed
  have contiguous := following.contiguous
  have blocks := following.blocks
  have atHeight := following.atHeight
  unfold AtHeight at atHeight
  cases move with
  | unspeculated place =>
      rw [place] at blocks atHeight
      exact ⟨sound, contiguous, following.quiet, following.noRequests, blocks,
        atHeight⟩
  | agree place recorded | differ place recorded =>
      rw [place, recorded] at atHeight
      cases atHeight.1
  | revert place | awaitRewind place | rewind place =>
      rw [place] at atHeight
      exact atHeight.elim
  | @addPair height value place =>
      rw [place] at blocks atHeight
      obtain ⟨nothing, above, count⟩ := atHeight
      have atHead : height =
          bridge.speculationMap.speculationHeadHotstuffHeight := by
        rw [contiguous.head, nothing, above]
        rfl
      refine ⟨sound, contiguous.addHeightPair _ _, following.quiet,
        following.noRequests, blocks, ?_⟩
      unfold AtHeight
      dsimp only [addPairStep]
      rw [SpeculativeExecGadget.addHeightPair_head atHead, nothing]
      exact ⟨List.cons_ne_nil _ _, rfl, above, count⟩
  | awaitSubmit place =>
      rw [place] at blocks atHeight
      exact ⟨sound, contiguous, following.quiet, following.noRequests, blocks,
        atHeight⟩
  | @submit height value place =>
      rw [place] at blocks atHeight
      refine ⟨sound, SpeculativeExecGadget.contiguous_unlock.mpr contiguous,
        following.quiet, rfl, ?_, atHeight⟩
      rw [← blocks]
      dsimp only [submitStep, VMControlInterface.scheduled,
        VMControlInterface.submitBlockForExec, EventThread.inFlight]
      rw [List.reduceOption_append, List.append_nil, List.append_assoc]
      cases value <;> rfl
  | @commit height committedBlockId remaining place _ popped =>
      rw [place] at blocks atHeight
      obtain ⟨something, single, above, count⟩ := atHeight
      obtain ⟨front, rest, recorded⟩ := List.exists_cons_of_ne_nil something
      obtain ⟨-, committed, after⟩ := contiguous.onCommitHotstuff recorded
      rw [← above] at committed
      obtain ⟨-, rfl⟩ := Prod.mk.inj (Except.ok.inj
        (popped.symm.trans committed))
      rw [recorded] at single
      exact ⟨sound, above ▸ after, following.quiet, following.noRequests,
        blocks, single, count⟩
  | commitFailure place raised =>
      rw [place] at atHeight
      obtain ⟨something, -, above, -⟩ := atHeight
      obtain ⟨front, rest, recorded⟩ := List.exists_cons_of_ne_nil something
      obtain ⟨-, committed, -⟩ := contiguous.onCommitHotstuff recorded
      rw [← above, raised] at committed
      cases committed
  | awaitLog place =>
      rw [place] at blocks atHeight
      exact ⟨sound, contiguous, following.quiet, following.noRequests, blocks,
        atHeight⟩
  | @log committedBlockId place =>
      rw [place] at blocks atHeight
      refine ⟨sound, contiguous, following.quiet, ?_, ?_, atHeight⟩
      · dsimp only [logStep, VMControlInterface.logCommitment]
        split <;> exact following.noRequests
      · rw [← blocks]
        dsimp only [logStep, VMControlInterface.logCommitment]
        split <;> rfl

theorem Following.vmStep (following : bridge.Following done) :
    bridge.vmStep.Following done := by
  obtain ⟨vmInterface, ran, result, sound⟩ := following.sound.vmStep
  obtain ⟨sameBlocks, noRequests⟩ :=
    VMControlInterface.scheduled_run following.noRequests ran
  rw [result]
  refine ⟨sound, following.contiguous, following.quiet, noRequests, ?_,
    following.atHeight⟩
  rw [sameBlocks]
  exact following.blocks

/-- The next committed block is handed to the bridge. -/
theorem Following.applyBlock (following : bridge.Following done)
    {blk : DecidedBlock} (height : blk.height.toNat = done.length + 1)
    (allowed : bridge.Enabled kind (.applyBlock blk.height.toNat blk.body)) :
    (bridge.applyBlock blk.height.toNat blk.body).Following
      (done ++ [blk]) := by
  have idle := EventThread.eq_idle allowed.1
  have blocks := following.blocks
  have atHeight := following.atHeight
  rw [AtHeight, idle] at atHeight
  rw [idle] at blocks
  refine ⟨following.sound.next allowed,
    (SpeculativeExecGadget.contiguous_lock _).mpr following.contiguous,
    following.quiet, following.noRequests, ?_, ?_⟩
  · rw [parsedBlocks_concat, ← blocks, List.append_assoc]
    rfl
  · refine ⟨atHeight.1, ?_, ?_⟩
    · rw [height]
      exact congrArg (· + 1) atHeight.2.symm
    · rw [height, List.length_append]
      rfl

omit [ExecutionLog] in
/-- Without a proposal in progress the speculation map can be locked outside of
`apply_block`. -/
theorem canLock_of_quiet (sound : bridge.Sound)
    (quiet : bridge.proposerThread = .idle)
    (outside : bridge.eventThread.inApplyBlock = false) :
    bridge.CanLock kind .events := by
  left
  rw [sound.discipline.holders, outside, quiet]
  rfl

/-- When the VM thread has nothing to do, the event thread can go on. -/
theorem Following.ready (following : bridge.Following done)
    (vmIdle : bridge.vmInterface.existsWorkToDo = false)
    (busy : bridge.eventThread ≠ .idle) : bridge.Enabled kind .events := by
  have atHeight := following.atHeight
  rw [AtHeight] at atHeight
  rw [Enabled]
  cases place : bridge.eventThread with
  | idle => exact (busy place).elim
  | compare | addPair | submit | logCommitment => trivial
  | awaitSubmit | awaitLog => exact vmIdle
  | applied =>
      exact canLock_of_quiet following.sound following.quiet (by rw [place]; rfl)
  | revert | awaitRewind | rewind | failed =>
      rw [place] at atHeight
      exact atHeight.elim

theorem Following.stepsLeft_eventStep (following : bridge.Following done)
    (allowed : bridge.Enabled kind .events) :
    bridge.eventStep.eventThread.stepsLeft < bridge.eventThread.stepsLeft := by
  have after := following.eventMove allowed rfl
  have atHeight := following.atHeight
  rw [AtHeight] at atHeight
  have move := eventMove_of_enabled allowed
  generalize bridge.eventStep = state at move after ⊢
  cases move with
  | unspeculated place | addPair place | awaitSubmit place | submit place
  | commit place | awaitLog place | log place =>
      rw [place]
      exact Nat.lt_succ_self _
  | agree place recorded | differ place recorded =>
      rw [place, recorded] at atHeight
      cases atHeight.1
  | revert place | awaitRewind place | rewind place =>
      rw [place] at atHeight
      exact atHeight.elim
  | commitFailure => exact after.atHeight.elim

theorem Following.pendingRounds_le (following : bridge.Following done) :
    bridge.vmInterface.pendingRounds ≤ 1 := by
  rw [VMControlInterface.pendingRounds, following.noRequests]
  split <;> omega

end HotstuffVMBridge

open HotstuffVMBridge

theorem following_of_reachable {kind : MutexKind} {configs : HotstuffConfigs}
    {chain : List DecidedBlock}
    (consecutive : chain.map (·.height.toNat) = List.range' 1 chain.length)
    {state : HotstuffVMBridge × List DecidedBlock}
    (reachable : (followerSystem kind configs chain).Reachable state) :
    ∃ done, chain = done ++ state.2 ∧ state.1.Following done := by
  refine reachable.invariant (fun state =>
    ∃ done, chain = done ++ state.2 ∧ state.1.Following done) ?_ ?_
  · rintro start rfl
    exact ⟨[], rfl, following_init configs⟩
  · rintro ⟨bridge, remaining⟩ action - ⟨done, split, following⟩
      ⟨allowed, guard⟩
    cases action with
    | applyBlock height body =>
        obtain ⟨blk, rest, given, rfl, rfl⟩ := guard
        dsimp only at split given
        rw [given] at split
        refine ⟨done ++ [blk], ?_, following.applyBlock ?_ allowed⟩
        · change chain = done ++ [blk] ++ remaining.tail
          rw [given, split, List.append_assoc]
          rfl
        · have position : (chain.map (·.height.toNat))[done.length]? =
              some blk.height.toNat := by
            rw [split]
            simp
          have bound : done.length < chain.length := by
            rw [split]
            simp
          rw [consecutive, List.getElem?_range' bound] at position
          have found := (Option.some.inj position).symm
          omega
    | events => exact ⟨done, split, following.eventMove allowed rfl⟩
    | vm => exact ⟨done, split, following.vmStep⟩
    | makeEmptyProposal height => exact guard.elim
    | getAndApplyNextProposal height => exact guard.elim
    | proposer =>
        have ready : bridge.proposerThread.Ready _ := allowed
        rw [following.quiet] at ready
        exact ready.elim
    | putVmInProposerMode =>
        exact ⟨done, split, following.sound.next allowed, following.contiguous,
          following.quiet, following.noRequests, following.blocks,
          following.atHeight⟩
    | stopProposals =>
        exact ⟨done, split, following.sound.next allowed, following.contiguous,
          following.quiet, following.noRequests, following.blocks,
          following.atHeight⟩

/-- A replica that never proposes executes the blocks that can be parsed. -/
theorem executed_of_followed {kind : MutexKind} {configs : HotstuffConfigs}
    {chain : List DecidedBlock}
    (consecutive : chain.map (·.height.toNat) = List.range' 1 chain.length)
    {state : HotstuffVMBridge × List DecidedBlock}
    (reachable : (followerSystem kind configs chain).Reachable state)
    (followed : Followed state) :
    executed state.1.vmInterface.vmInstance = parsedBlocks chain := by
  obtain ⟨done, split, following⟩ :=
    following_of_reachable consecutive reachable
  obtain ⟨nothingLeft, idle, vmIdle⟩ := followed
  obtain ⟨noBlocks, -, -⟩ := following.sound.polite.idle vmIdle
  have blocks := following.blocks
  rw [idle, VMControlInterface.scheduled, noBlocks] at blocks
  rw [nothingLeft, List.append_nil] at split
  rw [split, ← blocks]
  simp [EventThread.inFlight, List.reduceOption]

/-- Every run of the bridge can be completed. -/
theorem exists_followed {kind : MutexKind} {configs : HotstuffConfigs}
    {chain : List DecidedBlock}
    (consecutive : chain.map (·.height.toNat) = List.range' 1 chain.length)
    {state : HotstuffVMBridge × List DecidedBlock}
    (reachable : (followerSystem kind configs chain).Reachable state) :
    ∃ last, (followerSystem kind configs chain).Reachable last ∧
      Followed last := by
  refine reachable.finishes Followed (fun state => 16 * state.2.length +
    2 * state.1.eventThread.stepsLeft + state.1.vmInterface.pendingRounds)
    ?_
  rintro ⟨bridge, remaining⟩ reached unfinished
  obtain ⟨done, -, following⟩ := following_of_reachable consecutive reached
  dsimp only at following
  by_cases busy : bridge.vmInterface.existsWorkToDo = true
  · -- The VM thread has a round to run.
    obtain ⟨vmInterface, ran, result, -⟩ := following.sound.vmStep
    have fewer := following.sound.polite.pendingRounds_run busy ran
    refine ⟨.vm, ⟨⟨following.sound.running, busy⟩, trivial⟩, ?_⟩
    dsimp only [followerSystem, HotstuffVMBridge.next]
    rw [result]
    dsimp only
    omega
  have vmIdle : bridge.vmInterface.existsWorkToDo = false := by simpa using busy
  by_cases idle : bridge.eventThread = .idle
  · -- The next block is applied.
    cases remaining with
    | nil => exact (unfinished ⟨rfl, idle, vmIdle⟩).elim
    | cons blk rest =>
        have canLock : bridge.CanLock kind .events :=
          canLock_of_quiet following.sound following.quiet (by rw [idle]; rfl)
        have calls : bridge.Enabled kind
            (.applyBlock blk.height.toNat blk.body) :=
          ⟨by rw [idle]; rfl, canLock⟩
        refine ⟨.applyBlock blk.height.toNat blk.body,
          ⟨calls, blk, rest, rfl, rfl, rfl⟩, ?_⟩
        dsimp only [followerSystem, HotstuffVMBridge.next,
          HotstuffVMBridge.applyBlock, EventThread.stepsLeft, List.tail_cons]
        rw [List.length_cons]
        omega
  · have ready : bridge.Enabled kind .events := following.ready vmIdle idle
    have fewer := following.stepsLeft_eventStep ready
    have rounds := (following.eventMove ready rfl).pendingRounds_le
    refine ⟨.events, ⟨ready, trivial⟩, ?_⟩
    dsimp only [followerSystem, HotstuffVMBridge.next]
    omega

variable [IndexLibraries]

/-- On a committed chain, the non-speculative bridge dereferences no null block,
records every block, and executes exactly the bodies that can be parsed, in
order, as does the speculative bridge of a replica that never proposes, if and
only if every body of the chain can be parsed. -/
theorem nonspeculative_follows_iff (kind : MutexKind)
    (configs : HotstuffConfigs) (txn : Lmdb) {chain : List DecidedBlock}
    (consecutive : chain.map (·.height.toNat) =
      List.range' 1 chain.length) :
    (∃ after, NonspeculativeVMBridge.applyBlocks VMBase.initClean txn chain =
        (some after, logChain txn chain) ∧
      executed after = parsedBlocks chain ∧
      (∃ last, (followerSystem kind configs chain).Reachable last ∧
        Followed last) ∧
      ∀ last, (followerSystem kind configs chain).Reachable last →
        Followed last →
        executed last.1.vmInterface.vmInstance = executed after) ↔
    ∀ blk ∈ chain, blk.CarriesVmBlock := by
  constructor
  · rintro ⟨after, applied, -⟩ blk member
    by_contra unparsed
    have null := NonspeculativeVMBridge.applyBlocks_of_null
      VMBase.initClean txn member (Option.not_isSome_iff_eq_none.mp unparsed)
    rw [applied] at null
    cases null
  · intro parsed
    obtain ⟨after, applied, log⟩ :=
      NonspeculativeVMBridge.applyBlocks_of_parsed VMBase.initClean txn parsed
    rw [executed_initClean, List.nil_append] at log
    refine ⟨after, applied, log, exists_followed consecutive (.initial rfl), ?_⟩
    intro last reachable followed
    rw [log, executed_of_followed consecutive reachable followed]

end Bridges

/-! ### Concrete logs -/

namespace Symbolic

/-- Blocks at the heights from one on, with the given bodies. -/
def logOf (bodies : List Body) : List HotstuffLMDB.DecidedBlock :=
  (bodies.zipIdx 1).map fun (body, height) =>
    { height := UInt64.ofNat height, hash := zeroArray, body := body }

end Symbolic

open scoped Symbolic in
/-- Two blocks with VM blocks. -/
theorem nonspeculative_follows_two :
    let _ : VMBase := Symbolic.sequenceVM.logged
    let _ : ExecutionLog := Symbolic.sequenceVM.executionLog
    ∃ after, NonspeculativeVMBridge.applyBlocks VMBase.initClean
        IndexLibraries.empty (Symbolic.logOf [[5], [6]]) =
          (some after, HotstuffLMDB.logChain IndexLibraries.empty
            (Symbolic.logOf [[5], [6]])) ∧
      executed after = [(5 : UInt8), 6] := by
  intro vm log
  obtain ⟨after, applied, executes, -⟩ := (nonspeculative_follows_iff
    .nonrecursive Symbolic.defaultConfigs IndexLibraries.empty
    (show (Symbolic.logOf [[5], [6]]).map (·.height.toNat) = _ from by
      decide)).mpr (by decide)
  exact ⟨after, applied, executes⟩

open scoped Symbolic in
/-- A log that starts with the empty body of an empty proposal. -/
theorem nonspeculative_null_block :
    let _ : VMBase := Symbolic.sequenceVM.logged
    NonspeculativeVMBridge.applyBlocks VMBase.initClean IndexLibraries.empty
        (Symbolic.logOf [[], [6]]) =
      (none, HotstuffLMDB.logChain IndexLibraries.empty
        (Symbolic.logOf [[]])) := by
  intro vm
  rfl

end Hotstuff
