import Hotstuff.CommitAlignment

/-!
# Proposals and the head of the speculation

`do_propose` asks for a body at the height after `b_leaf`, while the speculation
map records a pair only at its own head and drops any other.  The two move
independently: the leaf with certificates and minted blocks, the head with
recorded pairs, decided blocks and `clear`.

As long as certificates stay below the head, decided blocks agree with what was
speculated, and no height is proposed twice, every height between the last
executed block and the head was proposed by the replica itself, and a non-empty
proposal is made at the head.  When another replica led before, the head has
stayed behind, and the proposals of the VM go untracked.
-/

namespace Hotstuff

section Head

variable [WireTypes] [Externals] {collisionFree : CollisionFree}

/-! ### Minting without the invariants of a clean start -/

namespace HotstuffCore

def Effect.proposalHeight : Effect → Option Nat
  | .getNextVmBlock _ hotstuffHeight => some hotstuffHeight
  | _ => none

/-- The heights for which the replica has asked the VM for a body. -/
def proposedHeights (core : HotstuffCore) : List Nat :=
  core.trace.filterMap Effect.proposalHeight

omit [Externals] in
theorem mem_proposedHeights_append {core after : HotstuffCore}
    {effects : List Effect} (traceEq : after.trace = effects ++ core.trace)
    {height : Nat} (member : height ∈ core.proposedHeights) :
    height ∈ after.proposedHeights := by
  rw [proposedHeights, traceEq, List.filterMap_append]
  exact List.mem_append_right _ member

/-- A minted block that was inserted is one above the leaf. -/
theorem height_mintedStore (collisionFree : CollisionFree)
    {core : HotstuffCore} (tree : core.store.WellFormed)
    (leafPlaced : core.store.Placed core.bLeaf) {body : Body}
    (complete : (core.mintedStore body).2.any = false) :
    (core.mintedStore body).1.Placed core.store.heap.length ∧
      (core.mintedStore body).1.height core.store.heap.length =
        core.store.height core.bLeaf + 1 := by
  have fresh : (core.minted body).links =
      (HotstuffBlock.new (core.minted body).wireBlock core.selfId).links := rfl
  have appended := tree.appended_of_complete fresh complete
  obtain ⟨above, edge, parentHash⟩ := appended.parent
  exact ⟨.inr (Option.isSome_of_eq_some edge),
    appended.tree.height_child collisionFree tree edge leafPlaced parentHash⟩

/-- The last executed block is not above the highest certificate, which is not
above the leaf. -/
structure Ordered (core : HotstuffCore) : Prop where
  hqcPlaced : core.store.Placed core.hqc.1
  leafPlaced : core.store.Placed core.bLeaf
  execCertified : core.store.height core.bExec ≤ core.store.height core.hqc.1
  hqcBelowLeaf : core.store.height core.hqc.1 ≤ core.store.height core.bLeaf

theorem ordered_init (selfId : ReplicaID) (config : ReplicaConfig)
    (secretKey : SecretKey) : (init selfId config secretKey).Ordered :=
  ⟨.inl rfl, .inl rfl, Nat.le_refl _, Nat.le_refl _⟩

/-- An event of the event thread moves the leaf at most to a newly certified
block. -/
theorem Ordered.step {core : HotstuffCore} (ordered : core.Ordered)
    (tree : core.store.WellFormed) (execPlaced : core.store.Placed core.bExec)
    {event : Event} (enabled : core.Enabled event)
    (notProposal : event.isProposal = false) :
    (core.step event).Ordered ∧
      ((core.step event).store.height (core.step event).bLeaf =
          core.store.height core.bLeaf ∨
        core.store.height core.hqc.1 <
            (core.step event).store.height (core.step event).hqc.1 ∧
          (core.step event).bLeaf = (core.step event).hqc.1) := by
  obtain ⟨blocks, txns, executes⟩ := executes_step tree execPlaced enabled
  have certified := executes.certified
  have longer := (grows_step tree enabled).2
  have moves := leafMoves_step tree event
  have execHeight := longer.height execPlaced
  have execCertified := ordered.execCertified
  have hqcBelowLeaf := ordered.hqcBelowLeaf
  generalize core.step event = after at *
  -- whatever was executed, it is below the new certificate
  have below (raised : core.store.height core.hqc.1 ≤
      after.store.height after.hqc.1) :
      after.store.height after.bExec ≤ after.store.height after.hqc.1 := by
    rcases certified with same | lower
    · rw [same, execHeight]
      omega
    · omega
  cases moves with
  | stays leaf hqc =>
      have hqcHeight : after.store.height after.hqc.1 =
          core.store.height core.hqc.1 := by
        rw [hqc, longer.height ordered.hqcPlaced]
      have leafHeight : after.store.height after.bLeaf =
          core.store.height core.bLeaf := by
        rw [leaf, longer.height ordered.leafPlaced]
      refine ⟨⟨?_, ?_, below hqcHeight.ge, by omega⟩, .inl leafHeight⟩
      · rw [hqc]
        exact longer.placed ordered.hqcPlaced
      · rw [leaf]
        exact longer.placed ordered.leafPlaced
  | @certified q placed higher leaf hqc =>
      have raised : core.store.height core.hqc.1 <
          after.store.height after.hqc.1 := by
        rw [hqc, longer.height placed]
        exact higher
      have newPlaced := longer.placed placed
      have same : after.bLeaf = after.hqc.1 := leaf.trans hqc.symm
      refine ⟨⟨hqc ▸ newPlaced, leaf ▸ newPlaced, below raised.le, ?_⟩,
        .inr ⟨raised, same⟩⟩
      rw [same]
  | mints nonemptyProposal body proposes =>
      rcases proposes with rfl | rfl <;> cases notProposal

/-- Proposing moves the leaf one up, unless the insertion fails. -/
theorem Ordered.proposeBody {core : HotstuffCore} (ordered : core.Ordered)
    (collisionFree : CollisionFree) (tree : core.store.WellFormed)
    (execPlaced : core.store.Placed core.bExec) (nonemptyProposal : Bool)
    (body : Body) :
    (core.proposeBody nonemptyProposal body).Ordered ∧
      (core.proposeBody nonemptyProposal body).store.height
          (core.proposeBody nonemptyProposal body).bLeaf ≤
        core.store.height core.bLeaf + 1 ∧
      core.store.height core.bLeaf + 1 ∈
        (core.proposeBody nonemptyProposal body).proposedHeights := by
  have longer := (grows_mintedStore tree body).2
  have execHeight := longer.height execPlaced
  have hqcHeight := longer.height ordered.hqcPlaced
  have leafHeight := longer.height ordered.leafPlaced
  have hqcPlaced := longer.placed ordered.hqcPlaced
  have execCertified := ordered.execCertified
  have hqcBelowLeaf := ordered.hqcBelowLeaf
  rcases core.proposeBody_cases nonemptyProposal body with
    ⟨-, result⟩ | ⟨complete, result⟩ <;> rw [result]
  · refine ⟨⟨hqcPlaced, longer.placed ordered.leafPlaced, ?_, ?_⟩, ?_, ?_⟩
    · change (core.mintedStore body).1.height core.bExec ≤
        (core.mintedStore body).1.height core.hqc.1
      omega
    · change (core.mintedStore body).1.height core.hqc.1 ≤
        (core.mintedStore body).1.height core.bLeaf
      omega
    · change (core.mintedStore body).1.height core.bLeaf ≤ _
      omega
    · simp [proposedHeights, Effect.proposalHeight]
  · obtain ⟨placed, height⟩ :=
      height_mintedStore collisionFree tree ordered.leafPlaced complete
    refine ⟨⟨hqcPlaced, placed, ?_, ?_⟩, Nat.le_of_eq height, ?_⟩
    · change (core.mintedStore body).1.height core.bExec ≤
        (core.mintedStore body).1.height core.hqc.1
      omega
    · change (core.mintedStore body).1.height core.hqc.1 ≤
        (core.mintedStore body).1.height core.store.heap.length
      omega
    · simp [proposedHeights, Effect.proposalHeight]

end HotstuffCore

/-- After reloading, the leaf and the highest certificate are at the height of
the last executed block. -/
theorem reloadDecidedBlocks_ordered {selfId : ReplicaID}
    {config : ReplicaConfig} {secretKey : SecretKey} {disk : Disk}
    {core : HotstuffCore} {highestDecisionHeight : Nat}
    (tree : core.store.WellFormed)
    (ok : (HotstuffCore.init selfId config secretKey).reloadDecidedBlocks disk =
      .ok (core, highestDecisionHeight)) :
    core.Ordered ∧ core.store.height core.bLeaf =
      core.store.height core.bExec := by
  obtain ⟨store, qc, p, -, -, found, rfl⟩ := reloadDecidedBlocks_ok ok
  rw [HotstuffCore.updateHqc_store] at tree
  obtain ⟨-, placed, -⟩ := tree.stored_of_getBlock found
  rcases HotstuffCore.updateHqc_cases { HotstuffCore.init selfId config
      secretKey with store := store } p (.ofWire qc) with
    ⟨-, effects, -, result⟩ | ⟨notHigher, result⟩ <;> rw [result]
  · exact ⟨⟨placed, placed, Nat.le_refl _, Nat.le_refl _⟩, rfl⟩
  · -- only a block at height zero does not raise the certificate on genesis
    have low : store.height p ≤ store.height 0 := notHigher
    have zero : store.height 0 = 0 := tree.genesis_height
    have height : store.height 0 = store.height p := by omega
    exact ⟨⟨.inl rfl, .inl rfl, low, Nat.le_refl _⟩, height⟩

/-! ### The head -/

variable [VMBase]

namespace HotstuffVMBridge

variable {kind : MutexKind} {bridge : HotstuffVMBridge}

/-- The decided block that the event thread looks at is the lowest one
speculated, or none is. -/
def comparesEqual (bridge : HotstuffVMBridge) : Bool :=
  match bridge.eventThread with
  | .compare _ value => decide (bridge.MatchesSpeculation value)
  | _ => true

omit [WireTypes] [Externals] in
/-- Without a mismatch the event thread moves the head only to record a decided
block, during `apply_block`. -/
theorem InOrder.head_eventStep (inOrder : bridge.InOrder)
    (allowed : bridge.Enabled kind .events)
    (equal : bridge.comparesEqual = true)
    (settled : ∀ height value, bridge.eventThread ≠ .revert height value) :
    bridge.eventStep.proposerThread = bridge.proposerThread ∧
      (∀ height value, bridge.eventStep.eventThread ≠ .revert height value) ∧
      (bridge.eventStep.speculationMap.speculationHeadHotstuffHeight =
          bridge.speculationMap.speculationHeadHotstuffHeight ∨
        bridge.eventThread.inApplyBlock = true ∧
          bridge.speculationMap.speculationHeadHotstuffHeight =
            bridge.handled ∧
          bridge.eventStep.speculationMap.speculationHeadHotstuffHeight =
            bridge.speculationMap.speculationHeadHotstuffHeight + 1) := by
  have move := eventMove_of_enabled allowed
  generalize bridge.eventStep = after at move ⊢
  cases move with
  | unspeculated | agree | awaitRewind | rewind | awaitSubmit | submit
  | commitFailure | awaitLog | log =>
      refine ⟨rfl, ?_, .inl rfl⟩
      intro height value reverting
      cases reverting
  | differ place recorded different =>
      rw [comparesEqual, place] at equal
      have same := of_decide_eq_true equal
      exact (different (same _ (by rw [recorded]; rfl))).elim
  | revert place => exact (settled _ _ place).elim
  | @addPair height value place =>
      obtain ⟨-, atHead⟩ := inOrder.addPair_atHead place
      refine ⟨rfl, ?_, .inr ⟨by rw [place]; rfl, ?_, ?_⟩⟩
      · intro height value reverting
        cases reverting
      · rw [handled, place, ← atHead,
          inOrder.follows height (by rw [place]; rfl)]
        rfl
      · dsimp only [addPairStep]
        rw [SpeculativeExecGadget.addHeightPair_head atHead, ← atHead]
  | @commit height committedBlockId remaining place _ popped =>
      obtain ⟨rest, -, rfl⟩ := SpeculativeExecGadget.onCommitHotstuff_ok popped
      refine ⟨rfl, ?_, .inl rfl⟩
      intro height value reverting
      cases reverting

end HotstuffVMBridge

namespace HotstuffApp

variable {kind : MutexKind} {app : HotstuffApp}

/-- `speculation_head_hotstuff_height` -/
def head (app : HotstuffApp) : Nat :=
  app.bridge.speculationMap.speculationHeadHotstuffHeight

/-- A certificate raises the highest one only on a block below the head, decided
blocks agree with the lowest speculated one, and a non-empty body is not asked
for a height that was proposed before. -/
def Undisturbed (app : HotstuffApp) : Action → Prop
  | .event event =>
      app.core.store.height app.core.hqc.1 <
          (app.core.step event).store.height (app.core.step event).hqc.1 →
        (app.core.step event).store.height (app.core.step event).hqc.1 <
          app.head
  | .doPropose => app.core.asksNonempty = true →
      app.newBlockHeight ∉ app.core.proposedHeights
  | .bridge .events => app.bridge.comparesEqual = true
  | _ => True

instance decidableUndisturbed (app : HotstuffApp) :
    (action : Action) → Decidable (app.Undisturbed action)
  | .event _ => inferInstanceAs (Decidable (_ < _ → _ < _))
  | .doPropose => inferInstanceAs (Decidable (_ = _ → _ ∉ _))
  | .bridge .events => inferInstanceAs (Decidable (_ = _))
  | .bridge (.applyBlock _ _) | .bridge (.makeEmptyProposal _)
  | .bridge (.getAndApplyNextProposal _) | .bridge .proposer | .bridge .vm
  | .bridge .putVmInProposerMode | .bridge .stopProposals | .applyBlock
  | .commitTxn | .doEmptyPropose | .finishProposal | .restart _ =>
      inferInstanceAs (Decidable True)

/-- A proposing call is in progress exactly when the application knows of it; it
waits for a proposal at the head only, and returns when the head has passed. -/
def Answering (app : HotstuffApp) : ProposerThread → Prop
  | .idle => app.proposing = none
  | .request height | .await height | .record height _ =>
      app.proposing.isSome = true ∧ height = app.newBlockHeight ∧
        height = app.head
  | .returned _ _ => app.proposing.isSome = true ∧ app.newBlockHeight < app.head

/-- The leaf is below the head, and what lies between the last executed block
and the head was proposed by the replica. -/
structure Tracking (app : HotstuffApp) : Prop where
  ordered : app.core.Ordered
  leafBelowHead : app.newBlockHeight ≤ app.head
  asked : ∀ height, app.core.store.height app.core.bExec < height →
    height < app.head → height ∈ app.core.proposedHeights ∨
      app.proposing.isSome = true ∧ height = app.newBlockHeight
  answering : app.Answering app.bridge.proposerThread
  settled : ∀ height value, app.bridge.eventThread ≠ .revert height value

theorem tracking_initClean (selfId : ReplicaID) (config : ReplicaConfig)
    (secretKey : SecretKey) (configs : HotstuffConfigs) :
    (initClean selfId config secretKey configs).Tracking where
  ordered := HotstuffCore.ordered_init selfId config secretKey
  leafBelowHead := Nat.le_refl 1
  asked := by
    intro height positive small
    exact (Nat.not_lt.mpr (Nat.le_of_lt_succ small) positive).elim
  answering := rfl
  settled := nofun

omit [Externals] in
/-- Outside of a proposing call the proposing thread is idle. -/
theorem Answering.idle {place : ProposerThread}
    (answering : app.Answering place) (idle : app.proposing = none) :
    place = .idle := by
  unfold Answering at answering
  rw [idle] at answering
  cases place with
  | idle => rfl
  | request | await | record | returned => cases answering.1

/-- An event of the event thread. -/
theorem Tracking.handle (tracking : app.Tracking)
    (aligned : app.Aligned collisionFree) {event : HotstuffCore.Event}
    (enabled : app.core.Enabled event) (notProposal : event.isProposal = false)
    (idle : app.proposing = none)
    (undisturbed : app.Undisturbed (.event event)) :
    (app.handle event).Tracking := by
  obtain ⟨blocks, txns, executes⟩ :=
    HotstuffCore.executes_step aligned.tree aligned.execPlaced enabled
  obtain ⟨effects, traceEq, -⟩ := executes.effects
  obtain ⟨ordered, leaf⟩ := tracking.ordered.step aligned.tree
    aligned.execPlaced enabled notProposal
  have execHeight := executes.execHeight
  have leafBelowHead := tracking.leafBelowHead
  unfold newBlockHeight at leafBelowHead
  unfold Undisturbed at undisturbed
  refine ⟨ordered, ?_, ?_, ?_, tracking.settled⟩
  · change (app.core.step event).store.height (app.core.step event).bLeaf + 1 ≤
      app.head
    rcases leaf with same | ⟨raised, same⟩
    · omega
    · rw [same]
      exact undisturbed raised
  · intro height above below
    have old : app.core.store.height app.core.bExec < height := by
      have above : (app.core.step event).store.height
        (app.core.step event).bExec < height := above
      omega
    rcases tracking.asked height old below with member | ⟨busy, -⟩
    · exact .inl (HotstuffCore.mem_proposedHeights_append traceEq member)
    · rw [idle] at busy
      cases busy
  · have place := tracking.answering.idle idle
    change (app.handle event).Answering app.bridge.proposerThread
    rw [place]
    exact idle

omit [Externals] in
/-- A step of the bridge moves the head forward, and past heights only that were
executed or that the call in progress asks for. -/
theorem Tracking.moveHead (tracking : app.Tracking)
    {bridge : HotstuffVMBridge} {proposing : Option Bool} {lastCommitted : Nat}
    (started : app.proposing.isSome = true → proposing.isSome = true)
    (forward : app.head ≤
      bridge.speculationMap.speculationHeadHotstuffHeight)
    (passed : ∀ height, app.core.store.height app.core.bExec < height →
      app.head ≤ height →
      height < bridge.speculationMap.speculationHeadHotstuffHeight →
      proposing.isSome = true ∧ height = app.newBlockHeight)
    (answering : { app with
        bridge := bridge
        proposing := proposing
        lastCommitted := lastCommitted }.Answering bridge.proposerThread)
    (settled : ∀ height value, bridge.eventThread ≠ .revert height value) :
    { app with
      bridge := bridge
      proposing := proposing
      lastCommitted := lastCommitted }.Tracking where
  ordered := tracking.ordered
  leafBelowHead := tracking.leafBelowHead.trans forward
  asked := by
    intro height above below
    rcases Nat.lt_or_ge height app.head with old | new
    · rcases tracking.asked height above old with member | ⟨busy, own⟩
      · exact .inl member
      · exact .inr ⟨started busy, own⟩
    · exact .inr (passed height above new below)
  answering := answering
  settled := settled

omit [Externals] in
/-- A step of the bridge that leaves the head and the proposing thread alone. -/
theorem Tracking.sameHead (tracking : app.Tracking)
    {bridge : HotstuffVMBridge} {lastCommitted : Nat}
    (head : bridge.speculationMap.speculationHeadHotstuffHeight = app.head)
    (place : bridge.proposerThread = app.bridge.proposerThread)
    (settled : ∀ height value, bridge.eventThread ≠ .revert height value) :
    { app with bridge := bridge, lastCommitted := lastCommitted }.Tracking := by
  refine tracking.moveHead id head.ge ?_ ?_ settled
  · intro height _ above below
    omega
  · rw [place]
    have answering := tracking.answering
    unfold Answering at answering ⊢
    unfold HotstuffApp.head at answering head ⊢
    simp only [head]
    exact answering

/-- A step of the event thread in the bridge. -/
theorem Tracking.events (tracking : app.Tracking)
    (aligned : app.Aligned collisionFree)
    (allowed : app.bridge.Enabled kind .events)
    (equal : app.bridge.comparesEqual = true) :
    (app.next (.bridge .events)).Tracking := by
  obtain ⟨place, settled, same | ⟨inside, handled, raised⟩⟩ :=
    aligned.inOrder.head_eventStep allowed equal tracking.settled
  · exact tracking.sameHead same place settled
  · have reached := aligned.reached
    have head : app.head = app.bridge.handled := handled
    have outside := aligned.inOrder.sound.discipline.exclusive inside
    have answering := tracking.answering
    refine tracking.moveHead id ?_ ?_ ?_ settled
    · change app.head ≤
        app.bridge.eventStep.speculationMap.speculationHeadHotstuffHeight
      rw [raised]
      exact Nat.le_succ _
    · -- the block that is recorded is not above the last executed one
      intro height above atHead below
      change height <
        app.bridge.eventStep.speculationMap.speculationHeadHotstuffHeight
        at below
      rw [raised, handled] at below
      omega
    · change Answering _ app.bridge.eventStep.proposerThread
      rw [place]
      cases here : app.bridge.proposerThread with
      | idle =>
          rw [here] at answering
          exact answering
      | request | await | record =>
          rw [here] at outside
          cases outside
      | returned height body =>
          rw [here] at answering
          refine ⟨answering.1, Nat.lt_of_lt_of_le answering.2 ?_⟩
          change app.head ≤
            app.bridge.eventStep.speculationMap.speculationHeadHotstuffHeight
          rw [raised]
          exact Nat.le_succ _

/-- A step of the proposing thread before its answer: what it records is at the
head. -/
theorem Tracking.proposer (tracking : app.Tracking)
    (allowed : app.bridge.Enabled kind .proposer) (waiting : app.answer = none) :
    (app.next (.bridge .proposer)).Tracking := by
  have move := HotstuffVMBridge.proposerMove_of_enabled allowed
  have answering := tracking.answering
  change { app with
    bridge := app.bridge.proposerStep, lastCommitted := _ }.Tracking
  generalize app.bridge.proposerStep = after at move ⊢
  -- places with the lock leave the map alone
  have keep {place : ProposerThread} {vmInterface : VMControlInterface}
      (waits : app.Answering place) :
      { app with
        bridge := { app.bridge with
          vmInterface := vmInterface
          proposerThread := place }
        lastCommitted :=
          (app.bridge.committing .proposer).getD app.lastCommitted }.Tracking := by
    refine tracking.moveHead id (Nat.le_refl _) ?_ ?_ tracking.settled
    · intro height _ above below
      exact (Nat.not_lt.mpr above below).elim
    · cases place <;> exact waits
  cases move with
  | nothing place | ask place =>
      rw [place] at answering
      exact keep answering
  | take place =>
      rcases place with ⟨place, -⟩ | place <;> rw [place] at answering <;>
        exact keep answering
  | @record height proposal place =>
      rw [place] at answering
      obtain ⟨busy, own, atHead⟩ := answering
      have recorded : (app.bridge.recordStep height
          proposal).speculationMap.speculationHeadHotstuffHeight =
            height + 1 := by
        dsimp only [HotstuffVMBridge.recordStep, SpeculativeExecGadget.unlock]
        rw [SpeculativeExecGadget.addHeightPair_head atHead]
      refine tracking.moveHead id ?_ ?_ ?_ tracking.settled
      · rw [recorded, ← atHead]
        exact Nat.le_succ _
      · intro other _ above below
        rw [recorded] at below
        exact ⟨busy, by omega⟩
      · refine ⟨busy, ?_⟩
        change app.newBlockHeight < (app.bridge.recordStep height
          proposal).speculationMap.speculationHeadHotstuffHeight
        rw [recorded, ← own]
        exact Nat.lt_succ_self _
  | finish place =>
      rw [answer, place] at waiting
      cases waiting

omit [Externals] in
/-- The start of a proposing call.  A non-empty body is asked for at the head. -/
theorem Tracking.startProposal (tracking : app.Tracking)
    (idle : app.proposing = none) {nonemptyProposal : Bool}
    (fresh : nonemptyProposal = true →
      app.newBlockHeight ∉ app.core.proposedHeights) :
    (app.startProposal nonemptyProposal).Tracking := by
  have leafBelowHead := tracking.leafBelowHead
  cases nonemptyProposal with
  | true =>
      have atHead : app.newBlockHeight = app.head := by
        by_contra below
        have execCertified := tracking.ordered.execCertified
        have hqcBelowLeaf := tracking.ordered.hqcBelowLeaf
        have above : app.core.store.height app.core.bExec <
            app.newBlockHeight := by
          unfold newBlockHeight
          omega
        rcases tracking.asked app.newBlockHeight above (by omega) with
          member | ⟨busy, -⟩
        · exact fresh rfl member
        · rw [idle] at busy
          cases busy
      refine tracking.moveHead (fun _ => rfl) (Nat.le_refl _) ?_
        ⟨rfl, rfl, atHead⟩ tracking.settled
      intro height _ above below
      exact (Nat.not_lt.mpr above below).elim
  | false =>
      have moved : (app.bridge.makeEmptyProposal
          app.newBlockHeight).speculationMap.speculationHeadHotstuffHeight =
            if app.newBlockHeight = app.head then app.head + 1 else app.head :=
        SpeculativeExecGadget.speculationHead_addHeightPair _ _
      -- whether it is recorded or dropped, the head is above the height
      have above : app.newBlockHeight < (app.bridge.makeEmptyProposal
          app.newBlockHeight).speculationMap.speculationHeadHotstuffHeight := by
        rw [moved]
        split <;> omega
      refine tracking.moveHead (fun _ => rfl) ?_ ?_ ⟨rfl, above⟩
        tracking.settled
      · exact Nat.le_trans (by split <;> omega) moved.ge
      · intro height _ new below
        have below := Nat.lt_of_lt_of_eq below moved
        refine ⟨rfl, ?_⟩
        split at below <;> omega

/-- A proposing call mints its block and returns. -/
theorem Tracking.finishProposal (tracking : app.Tracking)
    (aligned : app.Aligned collisionFree)
    (allowed : app.Enabled kind .finishProposal) :
    (app.next .finishProposal).Tracking := by
  have answered := allowed.2
  unfold answer at answered
  split at answered
  · rename_i height body place
    have answering := tracking.answering
    rw [place] at answering
    have passed := answering.2
    obtain ⟨ordered, leaf, member⟩ := tracking.ordered.proposeBody collisionFree
      aligned.tree aligned.execPlaced (app.proposing.getD false)
      (app.answer.getD [])
    obtain ⟨calm, bExec⟩ := app.core.calm_proposeBody
      (app.proposing.getD false) (app.answer.getD [])
    obtain ⟨effects, traceEq, -⟩ := calm
    have longer := (HotstuffCore.grows_mintedStore aligned.tree
      (app.answer.getD [])).2
    rw [← HotstuffCore.store_proposeBody app.core (app.proposing.getD false)]
      at longer
    have execHeight := longer.height aligned.execPlaced
    have result : app.bridge.proposerStep =
        { app.bridge with proposerThread := .idle } := by
      rw [HotstuffVMBridge.proposerStep, place]
    simp only [next, result]
    refine ⟨ordered, ?_, ?_, rfl, tracking.settled⟩
    · exact Nat.succ_le_of_lt (Nat.lt_of_le_of_lt leaf passed)
    · intro height above below
      rw [bExec, execHeight] at above
      left
      rcases tracking.asked height above below with old | ⟨-, own⟩
      · exact HotstuffCore.mem_proposedHeights_append traceEq old
      · rw [own]
        exact member
  · cases answered

theorem Tracking.restart {vm : VMState} {restarted : HotstuffApp}
    (aligned : restarted.Aligned collisionFree)
    (ok : app.restart vm = .ok restarted) : restarted.Tracking := by
  have reached := aligned.reached
  have tree := aligned.tree
  unfold HotstuffApp.restart initFromDisk at ok
  cases reload : (HotstuffCore.init app.core.selfId app.core.config
      app.core.secretKey).reloadDecidedBlocks app.disk with
  | error message =>
      rw [reload] at ok
      cases ok
  | ok result =>
      rw [reload] at ok
      cases ok
      obtain ⟨ordered, leaf⟩ := reloadDecidedBlocks_ordered tree reload
      have height : result.2 = result.1.store.height result.1.bExec := reached
      have leaf : result.1.store.height result.1.bLeaf =
        result.1.store.height result.1.bExec := leaf
      refine ⟨ordered, ?_, ?_, rfl, nofun⟩
      · change result.1.store.height result.1.bLeaf + 1 ≤ result.2 + 1
        omega
      · intro other above below
        have above : result.1.store.height result.1.bExec < other := above
        have below : other < result.2 + 1 := below
        omega

theorem Tracking.next (tracking : app.Tracking)
    (aligned : app.Aligned collisionFree) {action : Action}
    (allowed : app.Enabled kind action)
    (undisturbed : app.Undisturbed action) : (app.next action).Tracking := by
  have after := aligned.next allowed
  cases action with
  | event event =>
      obtain ⟨enabled, notProposal, -, -, -, idle⟩ := allowed
      exact tracking.handle aligned enabled notProposal idle undisturbed
  | applyBlock =>
      obtain ⟨nonempty, -⟩ := allowed
      obtain ⟨block, rest, queued⟩ := List.exists_cons_of_ne_nil nonempty
      have moved : { app with
          bridge := app.bridge.applyBlock block.blockHeight
            block.wireBlock.body }.Tracking :=
        tracking.sameHead rfl rfl fun _ _ reverting => by cases reverting
      simp only [HotstuffApp.next, queued]
      exact ⟨moved.ordered, moved.leafBelowHead, moved.asked, moved.answering,
        moved.settled⟩
  | commitTxn =>
      exact ⟨tracking.ordered, tracking.leafBelowHead, tracking.asked,
        tracking.answering, tracking.settled⟩
  | doPropose => exact tracking.startProposal allowed.2.1 undisturbed
  | doEmptyPropose =>
      apply tracking.startProposal allowed.2.1
      intro isNonempty
      cases isNonempty
  | finishProposal => exact tracking.finishProposal aligned allowed
  | bridge action =>
      obtain ⟨inside, enabled, waiting⟩ := allowed
      cases action with
      | events => exact tracking.events aligned enabled undisturbed
      | proposer => exact tracking.proposer enabled (waiting rfl)
      | vm =>
          obtain ⟨vmInterface, -, result, -⟩ := aligned.inOrder.sound.vmStep
          change { app with
            bridge := app.bridge.vmStep, lastCommitted := _ }.Tracking
          rw [result]
          exact tracking.sameHead rfl rfl tracking.settled
      | putVmInProposerMode | stopProposals =>
          exact tracking.sameHead rfl rfl tracking.settled
      | applyBlock | makeEmptyProposal | getAndApplyNextProposal =>
          cases inside
  | restart vm =>
      cases result : app.restart vm with
      | error message =>
          have ok : (app.restart vm).isOk = true := allowed
          rw [result] at ok
          cases ok
      | ok restarted =>
          simp only [HotstuffApp.next, result] at after ⊢
          exact .restart after result

/-- When `add_height_pair` is called for a block of the VM, the height is the
head, and the pair is recorded. -/
def RecordsProposals (app : HotstuffApp) : Prop :=
  ∀ height proposal,
    app.bridge.proposerThread = .record height (some proposal) →
    height = app.bridge.speculationMap.speculationHeadHotstuffHeight ∧
      (app.bridge.recordStep height (some proposal)).speculationMap.heightMap =
        app.bridge.speculationMap.heightMap ++
          [(height, VMBase.nonemptyBlockId proposal)]

omit [Externals] in
theorem Tracking.recordsProposals (tracking : app.Tracking) :
    app.RecordsProposals := by
  intro height proposal place
  have answering := tracking.answering
  rw [place] at answering
  have atHead := answering.2.2
  refine ⟨atHead, ?_⟩
  dsimp only [HotstuffVMBridge.recordStep, SpeculativeExecGadget.unlock]
  rw [SpeculativeExecGadget.addHeightPair_head atHead]
  rfl

end HotstuffApp

/-- In every run in which certificates stay below the head, decided blocks agree
with what was speculated and no height is proposed twice, with any stops and
restarts, each block that the VM proposes is recorded. -/
theorem proposals_recorded_undisturbed (collisionFree : CollisionFree)
    {kind : MutexKind} {selfId : ReplicaID} {config : ReplicaConfig}
    {secretKey : SecretKey} {configs : HotstuffConfigs} {app : HotstuffApp}
    (reachable : ((appSystem kind selfId config secretKey configs).restrict
      HotstuffApp.Undisturbed).Reachable app) : app.RecordsProposals := by
  have invariant : app.Aligned collisionFree ∧ app.Tracking := by
    refine reachable.invariant
      (fun app => app.Aligned collisionFree ∧ app.Tracking) ?_ ?_
    · rintro start rfl
      exact ⟨HotstuffApp.aligned_initClean selfId config secretKey configs,
        HotstuffApp.tracking_initClean selfId config secretKey configs⟩
    · rintro app action - ⟨aligned, tracking⟩ ⟨allowed, undisturbed⟩
      exact ⟨aligned.next allowed, tracking.next aligned allowed undisturbed⟩
  exact invariant.2.recordsProposals

end Head

/-! ### A leader from the start, and a leader after another one -/

namespace Symbolic.Restart

open scoped Symbolic
open Fork HotstuffApp

/-- The other replicas vote for a block. -/
def certify (app : HotstuffApp) (p : BlockPtr) : List Action :=
  [1, 2, 3].map fun voter =>
    .event (.vote (voteOf voter (app.core.store.hash p)) p voter)

/-- The replica handles its vote, if it has cast one. -/
def ownVote (app : HotstuffApp) (p : BlockPtr) : List Action :=
  if app.core.Enabled (.selfVote p) then [.event (.selfVote p)] else []

/-- A commit of one block goes through the bridge, if there is one. -/
def passCommit (app : HotstuffApp) : List Action :=
  if app.commitQueue.isEmpty then []
  else
    [.applyBlock] ++ List.replicate 5 (.bridge .events) ++ [.bridge .vm] ++
      List.replicate 2 (.bridge .events) ++ [.commitTxn]

/-- The replica proposes one block after the other.  It handles its proposal and
its vote, and each block is certified before the next one. -/
def ownBlocks (before : List Action) : List BlockPtr → List Action
  | [] => before
  | p :: later =>
      let handled := before ++
        [.doPropose, .finishProposal, .event (.proposal p 0)]
      let passed := handled ++ passCommit (system.run start handled)
      let voted := passed ++ ownVote (system.run start passed) p
      ownBlocks (voted ++ certify (system.run start voted) p) later

/-- The VM becomes a proposer, and `do_propose` gets a block from it. -/
def askVm : List Action :=
  [.bridge .putVmInProposerMode, .doPropose, .bridge .proposer, .bridge .vm,
    .bridge .proposer]

/-- Another replica's block is certified by its child. -/
def foreignBlock : List Action :=
  let child := blockOn (hashHeader b1.header)
    (certificateOn (hashHeader b1.header)) [1]
  ([b1, child].zipIdx 1).flatMap fun (wireBlock, p) =>
    [.event (.receiveBlock wireBlock 3), .event (.insertBlock p),
      .event (.proposal p 3)]

/-- The pair that is about to be recorded. -/
def pendingPair (app : HotstuffApp) : Option (Nat × UInt8) :=
  match app.bridge.proposerThread with
  | .record height (some proposal) => some (height, proposal)
  | _ => none

theorem record_of_pendingPair {app : HotstuffApp} {height : Nat}
    {proposal : UInt8} (pending : pendingPair app = some (height, proposal)) :
    app.bridge.proposerThread = .record height (some proposal) := by
  unfold pendingPair at pending
  split at pending
  · rename_i place
    cases pending
    exact place
  · cases pending

end Symbolic.Restart

open scoped Symbolic in
open Symbolic Symbolic.Restart in
/-- After three own blocks the fourth body comes from the VM and is recorded. -/
theorem proposals_recorded_own_chain :
    ∃ app : HotstuffApp,
      (system.restrict HotstuffApp.Undisturbed).Reachable app ∧
      (∃ proposal, app.bridge.proposerThread = .record 4 (some proposal)) ∧
      app.RecordsProposals := by
  have reachable : (system.restrict HotstuffApp.Undisturbed).Reachable
      ((system.restrict HotstuffApp.Undisturbed).run start
        (ownBlocks [] [1, 2, 3] ++ askVm)) := by
    refine .run (.initial rfl) ?_
    decide +kernel
  refine ⟨_, reachable, ⟨(1 : UInt8), record_of_pendingPair ?_⟩,
    proposals_recorded_undisturbed collisionFree reachable⟩
  decide +kernel

open scoped Symbolic in
open Symbolic Symbolic.Restart in
/-- After another replica's block and three own ones, a block of the VM at height
five meets a head at height two, and is dropped. -/
theorem proposal_untracked_after_foreign :
    ∃ (app : HotstuffApp) (proposal : VMBlock), system.Reachable app ∧
      app.bridge.proposerThread = .record 5 (some proposal) ∧
      app.bridge.speculationMap.speculationHeadHotstuffHeight = 2 ∧
      (app.bridge.recordStep 5 (some proposal)).speculationMap.heightMap =
        [] := by
  have reachable : system.Reachable
      (system.run start (ownBlocks foreignBlock [3, 4, 5] ++ askVm)) := by
    refine .run (.initial rfl) ?_
    decide +kernel
  refine ⟨_, (1 : UInt8), reachable, record_of_pendingPair ?_, ?_, ?_⟩ <;>
    decide +kernel

end Hotstuff
