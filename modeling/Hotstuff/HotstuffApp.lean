import Hotstuff.BridgeCommits
import Hotstuff.DecidedLog
import Hotstuff.OwnProposals

/-!
# The application: consensus core and VM bridge

`HotstuffApp` joins the consensus core with the bridge to the VM.  When `update`
commits, the event thread passes the blocks of the commit queue one by one to
`apply_block` and `notify_vm_of_commitment`, then completes the transaction of
the decided index, and handles no other event before it is through.  `do_propose`
asks the bridge for a body in the middle of the call, and mints the block when
the bridge has answered.

`do_propose` holds `proposal_mutex` throughout, and every commit goes through
`update_hqc`, which locks the same mutex.  So no event that commits or moves the
leaf happens during the call; events that do neither have no effect that the call
could see, and are taken to happen before or after it.

The process may stop at any moment.  What is on disk survives, and
`init_from_disk` starts from it.
-/

namespace Hotstuff

section App

variable [WireTypes] [Externals]

/-! ### What a core event commits -/

namespace HotstuffCore

/-- The transactions of a step.  A transaction adds the blocks up to the new
last executed one, and the certificate on it. -/
inductive Logs (core after : HotstuffCore) (txns : List Effect) : Prop
  | nothing (none : txns = []) (bExec : after.bExec = core.bExec)
  | rows {rows : List (Nat × Hash)} {qc : QuorumCertificateWire}
      (single : txns = [.commitTxn rows qc])
      (keys : rows.map Prod.fst =
        List.range' (core.store.height core.bExec + 1) rows.length)
      (execHeight : after.store.height after.bExec =
        core.store.height core.bExec + rows.length)
      (last : (rows.map Prod.snd).getLastD (core.store.hash core.bExec) =
        after.store.hash after.bExec)
      (certifies : qc.justify = after.store.hash after.bExec)

/-- The blocks that an event passes to the VM move the last executed block up by
as many heights, without a gap, to a block below the highest certificate. -/
structure Executes (core after : HotstuffCore) (blocks : List HotstuffBlock)
    (txns : List Effect) : Prop where
  effects : ∃ effects, after.trace = effects ++ core.trace ∧
    effects.reverse.filterMap Effect.appliedBlock = blocks ∧
    effects.reverse.filter Effect.isTxn = txns
  heights : blocks.map (·.blockHeight) =
    List.range' (core.store.height core.bExec + 1) blocks.length
  execPlaced : after.store.Placed after.bExec
  execHeight : after.store.height after.bExec =
    core.store.height core.bExec + blocks.length
  certified : after.bExec = core.bExec ∨
    after.store.height after.bExec < after.store.height after.hqc.1
  logs : Logs core after txns

omit [Externals] in
theorem Calm.executes {core after : HotstuffCore} (calm : Calm core after)
    (placed : core.store.Placed core.bExec)
    (longer : core.store.Extends after.store)
    (bExec : after.bExec = core.bExec) :
    Executes core after [] [] where
  effects := by
    obtain ⟨effects, traceEq, silent⟩ := calm
    refine ⟨effects, traceEq, ?_, ?_⟩
    · apply List.filterMap_eq_nil_iff.mpr
      intro effect member
      exact (silent effect (List.mem_reverse.mp member)).1
    · apply List.filter_eq_nil_iff.mpr
      intro effect member
      simp [(silent effect (List.mem_reverse.mp member)).2]
  heights := rfl
  execPlaced := bExec ▸ longer.placed placed
  execHeight := by rw [bExec, longer.height placed]; rfl
  certified := .inl bExec
  logs := .nothing rfl bExec

omit [Externals] in
/-- Calm effects before a commit do not matter. -/
theorem Executes.after_calm {core middle after : HotstuffCore}
    {blocks : List HotstuffBlock} {txns : List Effect}
    (executes : Executes middle after blocks txns)
    (calm : Calm core middle) (same : core.store.SameTree middle.store)
    (bExec : middle.bExec = core.bExec) :
    Executes core after blocks txns := by
  obtain ⟨effects, traceEq, applied, logged⟩ := executes.effects
  obtain ⟨calmEffects, calmTrace, silent⟩ := calm
  have height : middle.store.height middle.bExec =
      core.store.height core.bExec := by
    rw [bExec, same.height]
  have hash : middle.store.hash middle.bExec =
      core.store.hash core.bExec := by
    rw [bExec, same.hash]
  have noBlocks : calmEffects.reverse.filterMap Effect.appliedBlock = [] := by
    apply List.filterMap_eq_nil_iff.mpr
    intro effect member
    exact (silent effect (List.mem_reverse.mp member)).1
  have noTxns : calmEffects.reverse.filter Effect.isTxn = [] := by
    apply List.filter_eq_nil_iff.mpr
    intro effect member
    simp [(silent effect (List.mem_reverse.mp member)).2]
  refine ⟨⟨effects ++ calmEffects, ?_, ?_, ?_⟩, height ▸ executes.heights,
    executes.execPlaced, height ▸ executes.execHeight,
    bExec ▸ executes.certified, ?_⟩
  · rw [traceEq, calmTrace, List.append_assoc]
  · rw [List.reverse_append, List.filterMap_append, noBlocks, applied]
    rfl
  · rw [List.reverse_append, List.filter_append, noTxns, logged]
    rfl
  · cases executes.logs with
    | nothing none same => exact .nothing none (same.trans bExec)
    | rows single keys execHeight last certifies =>
        exact .rows single (height ▸ keys) (height ▸ execHeight)
          (hash ▸ last) certifies

omit [Externals] in
theorem appliedBlocks_commitEffects (core : HotstuffCore)
    (blocks : List BlockPtr) :
    (core.commitEffects blocks).filterMap Effect.appliedBlock =
        (blocks.map fun p => (core.block p).markDecided) ∧
      (core.commitEffects blocks).filter Effect.isTxn = [] := by
  induction blocks with
  | nil => exact ⟨rfl, rfl⟩
  | cons p blocks ih =>
      constructor
      · rw [List.map_cons, ← ih.1]
        rfl
      · exact ih.2

omit [Externals] in
/-- The last row of a commit is that of the block at which it ends. -/
theorem getLastD_rows {store : BlockStore} {blk last : BlockPtr}
    {commitQueue : List BlockPtr}
    (chain : store.Chain blk commitQueue last) :
    ((commitQueue.reverse.map (indexRow store)).map Prod.snd).getLastD
      (store.hash last) = store.hash blk := by
  cases chain with
  | here => rfl
  | up => simp [indexRow]

/-- A commit passes its queue to the VM, oldest block first, and then completes
its transaction. -/
theorem executes_commit {core : HotstuffCore} (tree : core.store.WellFormed)
    {commitQueue : List BlockPtr} {blk : BlockPtr} {qc : QuorumCertificate}
    (placed : core.store.Placed blk)
    (chain : core.store.Chain blk commitQueue core.bExec)
    (certified : core.store.height blk < core.store.height core.hqc.1)
    (certifies : qc.serialize.justify = core.store.hash blk) :
    ∃ txns, Executes core (core.commit commitQueue blk qc)
      (commitQueue.reverse.map fun p => (core.block p).markDecided) txns := by
  have nodup := tree.chain_nodup chain
  have bound : ∀ p ∈ commitQueue, p < core.store.heap.length :=
    fun p member =>
      BlockStore.WellFormed.lt_of_linked (chain.linked_of_mem member)
  have same := core.sameTree_commit commitQueue blk qc nodup bound
  obtain ⟨pruneHeight, committedHeight, result⟩ :=
    core.commit_eq commitQueue blk qc nodup bound
  have bExec : (core.commit commitQueue blk qc).bExec = blk := by
    rw [result]
  have hqc : (core.commit commitQueue blk qc).hqc = core.hqc := by
    rw [result]
  have heights := tree.chain_heights chain
  have height := tree.chain_height chain
  obtain ⟨applied, noTxn⟩ :=
    core.appliedBlocks_commitEffects commitQueue.reverse
  refine ⟨[.commitTxn (commitQueue.reverse.map (indexRow core.store))
    qc.serialize], ⟨.notifyOkToPruneBlocks committedHeight ::
      .commitTxn (commitQueue.reverse.map (indexRow core.store))
        qc.serialize :: (core.commitEffects commitQueue.reverse).reverse,
      ?_, ?_, ?_⟩, ?_, ?_, ?_, ?_, ?_⟩
  · rw [result]
    rfl
  · simp [applied, Effect.appliedBlock]
  · rw [List.reverse_cons, List.reverse_cons, List.reverse_reverse,
      List.filter_append, List.filter_append, noTxn]
    rfl
  · rw [List.map_map, List.length_map, List.length_reverse]
    exact heights
  · rw [bExec]
    exact (same.placed blk).mpr placed
  · rw [bExec, same.height, List.length_map, List.length_reverse]
    exact height
  · rw [bExec, hqc, same.height, same.height]
    exact .inr certified
  · refine .rows rfl ?_ ?_ ?_ ?_
    · rw [List.map_map, List.length_map, List.length_reverse]
      exact heights
    · rw [bExec, same.height, List.length_map, List.length_reverse]
      exact height
    · rw [bExec, same.hash]
      exact getLastD_rows chain
    · rw [bExec, same.hash]
      exact certifies

theorem executes_update {core : HotstuffCore} (tree : core.store.WellFormed)
    (placed : core.store.Placed core.bExec) (nblk : BlockPtr) :
    ∃ blocks txns, Executes core (core.update nblk) blocks txns := by
  have longer := (sameTree_update tree nblk).extends
  have outcome := update_result core nblk
  generalize core.update nblk = after at longer outcome ⊢
  have locked (blk2 blk1 : BlockPtr) (qc : QuorumCertificate) :
      Calm core ((core.updateHqc blk2 qc).lockAndWrite blk1) :=
    (calm_updateHqc core blk2 qc).trans (calm_lockAndWrite _ blk1)
  cases outcome with
  | skip => exact ⟨[], [], Calm.executes (.of_trace rfl) placed longer rfl⟩
  | certificate =>
      exact ⟨[], [], (calm_updateHqc core _ _).executes placed longer
        (updateHqc_bExec core _ _)⟩
  | lock =>
      exact ⟨[], [], (locked _ _ _).executes placed longer
        (updateHqc_bExec core _ _)⟩
  | fail =>
      exact ⟨[], [], Calm.executes ((locked _ _ _).trans (.of_trace rfl))
        placed longer (updateHqc_bExec core _ _)⟩
  | @commit blk2 blk1 blk commitQueue _ _ _ _ names _ parent2 parent1 walked =>
      have calm := locked blk2 blk1 (core.block nblk).getJustifyQc
      have same := (core.updateHqc blk2
        (core.block nblk).getJustifyQc).sameTree_lockAndWrite blk1
      rw [updateHqc_store] at same
      have bExec : ((core.updateHqc blk2
          (core.block nblk).getJustifyQc).lockAndWrite blk1).bExec =
            core.bExec := updateHqc_bExec core _ _
      -- the certificate is at least on the grandchild of the block
      have certified : core.store.height blk <
          core.store.height ((core.updateHqc blk2
            (core.block nblk).getJustifyQc).lockAndWrite blk1).hqc.1 := by
        have reached := (core.height_hqc_updateHqc blk2
          (core.block nblk).getJustifyQc).2
        have upper := (tree.linked _ _ parent2).heightEq
        have lower := (tree.linked _ _ parent1).heightEq
        change core.store.height blk < core.store.height (core.updateHqc blk2
          (core.block nblk).getJustifyQc).hqc.1
        omega
      have chain := same.symm.chain (BlockStore.walk_cases walked).1
      generalize (core.updateHqc blk2
        (core.block nblk).getJustifyQc).lockAndWrite blk1 = middle at *
      rw [← bExec] at chain
      obtain ⟨-, justifyPlaced, hashEq⟩ := tree.justify_stored names
      have certifies : (core.block blk1).getJustifyQc.serialize.justify =
          middle.store.hash blk := by
        rw [same.hash, hashEq]
        rfl
      obtain ⟨txns, committed⟩ := executes_commit (same.wellFormed tree)
        ((same.placed blk).mpr justifyPlaced) chain
        (by rwa [same.height, same.height]) certifies
      exact ⟨_, txns, committed.after_calm calm same bExec⟩

/-- What every event commits. -/
theorem executes_step {core : HotstuffCore} (tree : core.store.WellFormed)
    (placed : core.store.Placed core.bExec) {event : Event}
    (enabled : core.Enabled event) :
    ∃ blocks txns, Executes core (core.step event) blocks txns := by
  have longer := (grows_step tree enabled).2
  have idle {after : HotstuffCore} (longer : core.store.Extends after.store)
      (calm : Calm core after ∧ after.bExec = core.bExec) :
      ∃ blocks txns, Executes core after blocks txns :=
    ⟨[], [], calm.1.executes placed longer calm.2⟩
  cases event with
  | receiveBlock wireBlock source => exact idle longer ⟨.of_trace rfl, rfl⟩
  | insertBlock p => exact idle longer ⟨.of_trace rfl, rfl⟩
  | vote cert p voter => exact idle longer (calm_onReceiveVote _ _ _ _)
  | selfVote p => exact idle longer (calm_onReceiveVote _ _ _ _)
  | proposal p proposer =>
      rcases onReceiveProposal_cases tree p proposer with
        ⟨-, result⟩ | ⟨-, result⟩ <;> rw [step, result]
      · have voted : (core.castVote p proposer).store.WellFormed := tree
        obtain ⟨blocks, txns, executes⟩ := executes_update voted placed p
        refine ⟨blocks, txns, executes.after_calm ?_ ⟨rfl, rfl, fun _ => rfl⟩
          rfl⟩
        exact ⟨[_], rfl, List.forall_mem_singleton.mpr ⟨rfl, rfl⟩⟩
      · exact executes_update tree placed p
  | doPropose body => exact idle longer (calm_proposeBody _ _ _)
  | doEmptyPropose body => exact idle longer (calm_proposeBody _ _ _)
  | garbageCollect => exact idle longer ⟨.of_trace rfl, rfl⟩

/-- The effects of a step, oldest first. -/
def newEffects (core after : HotstuffCore) : List Effect :=
  (after.trace.take (after.trace.length - core.trace.length)).reverse

omit [Externals] in
theorem newEffects_append {core after : HotstuffCore} {effects : List Effect}
    (traceEq : after.trace = effects ++ core.trace) :
    newEffects core after = effects.reverse := by
  rw [newEffects, traceEq, List.length_append, Nat.add_sub_cancel,
    List.take_left]

end HotstuffCore

/-! ### The application -/

variable [VMBase]

structure HotstuffApp where
  core : HotstuffCore
  bridge : HotstuffVMBridge
  /-- what a stop of the process leaves behind -/
  disk : Disk
  /-- the decided blocks that `update` has still to pass to the VM, next block
  first -/
  commitQueue : List HotstuffBlock
  /-- the transaction of the commit in progress -/
  txns : List Effect
  /-- whether the call of `do_propose` in progress asks for a non-empty body -/
  proposing : Option Bool
  /-- the height of the last block passed to `notify_vm_of_commitment`, at the
  start that of the last decided block -/
  lastCommitted : Nat

namespace HotstuffApp

def initClean (selfId : ReplicaID) (config : ReplicaConfig)
    (secretKey : SecretKey) (configs : HotstuffConfigs) : HotstuffApp where
  core := .init selfId config secretKey
  bridge := .init configs
  disk := .empty
  commitQueue := []
  txns := []
  proposing := none
  lastCommitted := 0

/-- The VM initialises itself from the decided index; `vm` is the state in which
it does so. -/
def initFromDisk (selfId : ReplicaID) (config : ReplicaConfig)
    (secretKey : SecretKey) (configs : HotstuffConfigs) (vm : VMState)
    (disk : Disk) : Except String HotstuffApp := do
  let (reloaded, highestDecisionHeight) ←
    (HotstuffCore.init selfId config secretKey).reloadDecidedBlocks disk
  .ok
    { core := reloaded
      bridge :=
        { HotstuffVMBridge.init configs with
          speculationMap := .initFromDisk highestDecisionHeight .events
          vmInterface :=
            { VMControlInterface.init configs with vmInstance := vm } }
      disk := disk
      commitQueue := []
      txns := []
      proposing := none
      lastCommitted := highestDecisionHeight }

/-- The process stops, and starts again with `init_from_disk`. -/
def restart (app : HotstuffApp) (vm : VMState) : Except String HotstuffApp :=
  initFromDisk app.core.selfId app.core.config app.core.secretKey
    app.bridge.vmInterface.configs vm app.disk

inductive Action
  /-- the event thread handles an event -/
  | event (event : HotstuffCore.Event)
  /-- the event thread passes the next decided block to the bridge -/
  | applyBlock
  /-- the event thread completes the transaction of a commit -/
  | commitTxn
  | doPropose
  | doEmptyPropose
  /-- a proposing call that has its body mints the block and returns -/
  | finishProposal
  /-- a step inside the bridge -/
  | bridge (action : HotstuffVMBridge.Action)
  | restart (vm : VMState)

/-- The actions of the bridge that are not calls by the core. -/
def inner : HotstuffVMBridge.Action → Bool
  | .events | .proposer | .vm | .putVmInProposerMode | .stopProposals => true
  | _ => false

/-- The body of a proposing call that the bridge has answered. -/
def answer (app : HotstuffApp) : Option Body :=
  match app.bridge.proposerThread with
  | .returned _ body => some body
  | _ => none

/-- A proposing call can start. -/
def CanPropose (kind : MutexKind) (app : HotstuffApp) : Prop :=
  app.core.failed = none ∧ app.proposing = none ∧
    app.bridge.proposerThread.isIdle = true ∧ app.bridge.CanLock kind .proposer

def Enabled (kind : MutexKind) (app : HotstuffApp) : Action → Prop
  | .event event => app.core.Enabled event ∧ event.isProposal = false ∧
      app.commitQueue = [] ∧ app.txns = [] ∧
      app.bridge.eventThread.isIdle = true ∧ app.proposing = none
  | .applyBlock => app.commitQueue ≠ [] ∧
      app.bridge.eventThread.isIdle = true ∧ app.bridge.CanLock kind .events
  | .commitTxn => app.commitQueue = [] ∧ app.txns ≠ [] ∧
      app.bridge.eventThread.isIdle = true
  | .doPropose => app.CanPropose kind
  | .doEmptyPropose => app.CanPropose kind
  | .finishProposal => app.proposing.isSome = true ∧ app.answer.isSome = true
  | .bridge action => inner action = true ∧
      app.bridge.Enabled kind action ∧
      (action = .proposer → app.answer = none)
  | .restart vm => (app.restart vm).isOk = true

/-- `get_next_vm_block` -/
def getNextVmBlock (bridge : HotstuffVMBridge) (nonemptyProposal : Bool)
    (hotstuffHeight : Nat) : HotstuffVMBridge :=
  if !nonemptyProposal then bridge.makeEmptyProposal hotstuffHeight
  else bridge.getAndApplyNextProposal hotstuffHeight

/-- The height of the next block that the replica proposes. -/
def newBlockHeight (app : HotstuffApp) : Nat :=
  app.core.store.height app.core.bLeaf + 1

def startProposal (app : HotstuffApp) (nonemptyProposal : Bool) :
    HotstuffApp :=
  { app with
    bridge := getNextVmBlock app.bridge nonemptyProposal app.newBlockHeight
    proposing := some nonemptyProposal }

/-- The event thread handles an event.  A commit leaves its queue and its
transaction for the steps that follow. -/
def handle (app : HotstuffApp) (event : HotstuffCore.Event) : HotstuffApp :=
  let effects := app.core.newEffects (app.core.step event)
  { app with
    core := app.core.step event
    disk := (effects.filter (!·.isTxn)).foldl .write app.disk
    commitQueue := effects.filterMap Effect.appliedBlock
    txns := effects.filter Effect.isTxn }

def next (app : HotstuffApp) : Action → HotstuffApp
  | .event event => app.handle event
  | .applyBlock =>
      match app.commitQueue with
      | [] => app
      | block :: rest =>
          { app with
            bridge := app.bridge.applyBlock block.blockHeight
              block.wireBlock.body
            commitQueue := rest }
  | .commitTxn =>
      { app with disk := app.txns.foldl .write app.disk, txns := [] }
  | .doPropose => app.startProposal app.core.asksNonempty
  | .doEmptyPropose => app.startProposal false
  | .finishProposal =>
      { app with
        core := app.core.proposeBody (app.proposing.getD false)
          (app.answer.getD [])
        bridge := app.bridge.proposerStep
        proposing := none }
  | .bridge action =>
      { app with
        bridge := app.bridge.next action
        lastCommitted :=
          (app.bridge.committing action).getD app.lastCommitted }
  | .restart vm =>
      match app.restart vm with
      | .ok restarted => restarted
      | .error _ => app

instance decidableCanPropose (kind : MutexKind) (app : HotstuffApp) :
    Decidable (app.CanPropose kind) :=
  inferInstanceAs (Decidable (_ ∧ _ ∧ _ ∧ Mutex.CanLock _ _ _))

instance decidableAppEnabled (kind : MutexKind) (app : HotstuffApp) :
    (action : Action) → Decidable (app.Enabled kind action)
  | .event event =>
      let _ := HotstuffCore.decidableEnabled app.core event
      let _ : Decidable (app.commitQueue = []) :=
        decidable_of_iff _ List.isEmpty_iff
      let _ : Decidable (app.txns = []) := decidable_of_iff _ List.isEmpty_iff
      inferInstanceAs (Decidable (_ ∧ _ ∧ _ ∧ _ ∧ _ ∧ _))
  | .applyBlock =>
      let _ : Decidable (app.commitQueue = []) :=
        decidable_of_iff _ List.isEmpty_iff
      inferInstanceAs (Decidable (_ ∧ _ ∧ Mutex.CanLock _ _ _))
  | .commitTxn =>
      let _ : Decidable (app.commitQueue = []) :=
        decidable_of_iff _ List.isEmpty_iff
      let _ : Decidable (app.txns = []) := decidable_of_iff _ List.isEmpty_iff
      inferInstanceAs (Decidable (_ ∧ _ ∧ _))
  | .doPropose => inferInstanceAs (Decidable (app.CanPropose kind))
  | .doEmptyPropose => inferInstanceAs (Decidable (app.CanPropose kind))
  | .finishProposal => inferInstanceAs (Decidable (_ ∧ _))
  | .bridge action =>
      let _ := HotstuffVMBridge.decidableEnabled kind app.bridge action
      let _ : Decidable (action = .proposer → app.answer = none) :=
        match action with
        | .proposer => decidable_of_iff (app.answer = none) (by simp)
        | .applyBlock _ _ | .events | .makeEmptyProposal _
        | .getAndApplyNextProposal _ | .vm | .putVmInProposerMode
        | .stopProposals => isTrue nofun
      inferInstanceAs (Decidable (_ ∧ _ ∧ _))
  | .restart _ => inferInstanceAs (Decidable (_ = _))

end HotstuffApp

/-- The application from `init_clean` on, with a speculation map whose mutex is
of the given kind. -/
def appSystem (kind : MutexKind) (selfId : ReplicaID) (config : ReplicaConfig)
    (secretKey : SecretKey) (configs : HotstuffConfigs) :
    TransitionSystem HotstuffApp HotstuffApp.Action where
  initial := fun app => app = .initClean selfId config secretKey configs
  enabled := HotstuffApp.Enabled kind
  next := HotstuffApp.next

instance decidableAppSystemEnabled (kind : MutexKind) (selfId : ReplicaID)
    (config : ReplicaConfig) (secretKey : SecretKey)
    (configs : HotstuffConfigs) (app : HotstuffApp)
    (action : HotstuffApp.Action) :
    Decidable ((appSystem kind selfId config secretKey configs).enabled app
      action) :=
  inferInstanceAs (Decidable (app.Enabled kind action))

end App

end Hotstuff
