import Hotstuff.HotstuffVMBridge

/-!
# Locking in the bridge

The places of the threads tell who holds the mutex of the speculation map, and
two threads never hold it together.  This is what protects the VM interface
too: while a block is applied no proposal is being made.

`apply_block` locks the speculation map and, when the decided block is not the
one speculated, calls `clear`, which locks it again.  With a nonrecursive mutex
that call never returns.
-/

namespace Hotstuff

section Locking

variable [VMBase]

namespace HotstuffVMBridge

variable {kind : MutexKind} {bridge : HotstuffVMBridge}

/-- The places of the threads tell who has locked the speculation map. -/
structure LockDiscipline (bridge : HotstuffVMBridge) : Prop where
  holders : bridge.speculationMap.mtx.holders =
    (if bridge.eventThread.inApplyBlock then [.events] else []) ++
      (if bridge.proposerThread.inGetProposal then [.proposer] else [])
  exclusive : bridge.eventThread.inApplyBlock = true →
    bridge.proposerThread.inGetProposal = false

theorem lockDiscipline_init (configs : HotstuffConfigs) :
    (init configs).LockDiscipline :=
  ⟨rfl, fun _ => rfl⟩

namespace LockDiscipline

/-- A thread outside its critical section that can lock finds the mutex free. -/
theorem free_for_events (discipline : bridge.LockDiscipline)
    (outside : bridge.eventThread.inApplyBlock = false)
    (allowed : bridge.CanLock kind .events) :
    bridge.proposerThread.inGetProposal = false ∧
      bridge.speculationMap.mtx.holders = [] := by
  have holders := discipline.holders
  have notProposer : ¬ bridge.speculationMap.mtx.Holds .proposer :=
    Mutex.CanLock.not_holds_other allowed (by decide)
  cases inside : bridge.proposerThread.inGetProposal with
  | false =>
      rw [outside, inside] at holders
      exact ⟨rfl, holders⟩
  | true =>
      rw [inside] at holders
      exact (notProposer (by simp [Mutex.Holds, holders])).elim

theorem free_for_proposer (discipline : bridge.LockDiscipline)
    (outside : bridge.proposerThread.inGetProposal = false)
    (allowed : bridge.CanLock kind .proposer) :
    bridge.eventThread.inApplyBlock = false ∧
      bridge.speculationMap.mtx.holders = [] := by
  have holders := discipline.holders
  have notEvents : ¬ bridge.speculationMap.mtx.Holds .events :=
    Mutex.CanLock.not_holds_other allowed (by decide)
  cases inside : bridge.eventThread.inApplyBlock with
  | false =>
      rw [outside, inside] at holders
      exact ⟨rfl, holders⟩
  | true =>
      rw [inside] at holders
      exact (notEvents (by simp [Mutex.Holds, holders])).elim

/-- A step that neither locks nor unlocks. -/
theorem keep (discipline : bridge.LockDiscipline) {after : HotstuffVMBridge}
    (sameMutex : after.speculationMap.mtx = bridge.speculationMap.mtx)
    (sameEvents : after.eventThread.inApplyBlock =
      bridge.eventThread.inApplyBlock)
    (sameProposer : after.proposerThread.inGetProposal =
      bridge.proposerThread.inGetProposal) : after.LockDiscipline := by
  constructor
  · rw [sameMutex, sameEvents, sameProposer]
    exact discipline.holders
  · rw [sameEvents, sameProposer]
    exact discipline.exclusive

/-- The return from `apply_block`. -/
theorem leaveApplyBlock (discipline : bridge.LockDiscipline)
    {after : HotstuffVMBridge}
    (before : bridge.eventThread.inApplyBlock = true)
    (unlocked : after.speculationMap.mtx = bridge.speculationMap.mtx.unlock)
    (left : after.eventThread.inApplyBlock = false)
    (sameProposer : after.proposerThread = bridge.proposerThread) :
    after.LockDiscipline := by
  have outside := discipline.exclusive before
  have holders := discipline.holders
  rw [before, outside] at holders
  constructor
  · rw [unlocked, left, sameProposer, outside, Mutex.unlock, holders]
    rfl
  · intro inside
    rw [left] at inside
    cases inside

theorem eventMove (discipline : bridge.LockDiscipline)
    {after : HotstuffVMBridge} (move : EventMove kind bridge after) :
    after.LockDiscipline := by
  cases move with
  | agree place | submit place =>
      exact discipline.leaveApplyBlock (by rw [place]; rfl) rfl rfl rfl
  | addPair place =>
      exact discipline.keep (SpeculativeExecGadget.mtx_addHeightPair _ _)
        (by rw [place]; rfl) rfl
  | commit place _ popped =>
      obtain ⟨rest, -, rfl⟩ := SpeculativeExecGadget.onCommitHotstuff_ok popped
      exact discipline.keep rfl (by rw [place]; rfl) rfl
  | unspeculated place | differ place | revert place | awaitRewind place
  | rewind place | awaitSubmit place | commitFailure place | awaitLog place
  | log place =>
      exact discipline.keep rfl (by rw [place]; rfl) rfl

/-- The return from `get_and_apply_next_proposal`. -/
theorem leaveGetProposal (discipline : bridge.LockDiscipline)
    {after : HotstuffVMBridge}
    (before : bridge.proposerThread.inGetProposal = true)
    (unlocked : after.speculationMap.mtx = bridge.speculationMap.mtx.unlock)
    (left : after.proposerThread.inGetProposal = false)
    (sameEvents : after.eventThread = bridge.eventThread) :
    after.LockDiscipline := by
  have outside : bridge.eventThread.inApplyBlock = false := by
    by_contra inside
    rw [discipline.exclusive (by simpa using inside)] at before
    cases before
  have holders := discipline.holders
  rw [before, outside] at holders
  constructor
  · rw [unlocked, left, sameEvents, outside, Mutex.unlock, holders]
    rfl
  · intro _
    exact left

theorem proposerMove (discipline : bridge.LockDiscipline)
    {after : HotstuffVMBridge} (move : ProposerMove bridge after) :
    after.LockDiscipline := by
  cases move with
  | record place =>
      refine discipline.leaveGetProposal (by rw [place]; rfl) ?_ rfl rfl
      exact congrArg Mutex.unlock (SpeculativeExecGadget.mtx_addHeightPair _ _)
  | take place =>
      refine discipline.keep rfl rfl ?_
      rcases place with ⟨place, -⟩ | place
      · rw [place]
        rfl
      · rw [place]
        rfl
  | nothing place | ask place | finish place =>
      exact discipline.keep rfl rfl (by rw [place]; rfl)

theorem applyBlock (discipline : bridge.LockDiscipline)
    (outside : bridge.eventThread.isIdle = true)
    (allowed : bridge.CanLock kind .events) (height : Nat) (body : Body) :
    (bridge.applyBlock height body).LockDiscipline := by
  have notInside : bridge.eventThread.inApplyBlock = false := by
    rw [EventThread.eq_idle outside]
    rfl
  obtain ⟨noProposal, free⟩ := discipline.free_for_events notInside allowed
  constructor
  · show .events :: bridge.speculationMap.mtx.holders = _
    rw [free]
    simp [HotstuffVMBridge.applyBlock, EventThread.inApplyBlock, noProposal]
  · intro _
    exact noProposal

theorem getAndApplyNextProposal (discipline : bridge.LockDiscipline)
    (outside : bridge.proposerThread.isIdle = true)
    (allowed : bridge.CanLock kind .proposer) (proposalHeight : Nat) :
    (bridge.getAndApplyNextProposal proposalHeight).LockDiscipline := by
  have notInside : bridge.proposerThread.inGetProposal = false := by
    rw [ProposerThread.eq_idle outside]
    rfl
  obtain ⟨noBlock, free⟩ := discipline.free_for_proposer notInside allowed
  constructor
  · show .proposer :: bridge.speculationMap.mtx.holders = _
    rw [free]
    simp [HotstuffVMBridge.getAndApplyNextProposal,
      ProposerThread.inGetProposal, noBlock]
  · intro inside
    rw [show (bridge.getAndApplyNextProposal proposalHeight).eventThread =
      bridge.eventThread from rfl, noBlock] at inside
    cases inside

theorem makeEmptyProposal (discipline : bridge.LockDiscipline)
    (outside : bridge.proposerThread.isIdle = true) (proposalHeight : Nat) :
    (bridge.makeEmptyProposal proposalHeight).LockDiscipline := by
  refine discipline.keep ?_ rfl ?_
  · exact congrArg Mutex.unlock (SpeculativeExecGadget.mtx_addHeightPair _ _)
  · rw [ProposerThread.eq_idle outside]
    rfl

end LockDiscipline

/-- What holds in every state of the bridge, whatever the mutex: the lock
discipline, and that the VM thread never finds a request outside proposer mode. -/
structure Sound (bridge : HotstuffVMBridge) : Prop where
  discipline : bridge.LockDiscipline
  polite : bridge.vmInterface.Polite
  awaiting : ∀ height, bridge.proposerThread = .await height →
    bridge.vmInterface.isProposer = true
  running : bridge.vmThreadFailed = none

theorem sound_init (configs : HotstuffConfigs) : (init configs).Sound where
  discipline := lockDiscipline_init configs
  polite := VMControlInterface.polite_init configs
  awaiting := fun _ place => by cases place
  running := rfl

namespace Sound

/-- A step of the event thread leaves proposer mode only by submitting a block,
when no proposal is being made. -/
theorem eventMove (sound : bridge.Sound) {after : HotstuffVMBridge}
    (move : EventMove kind bridge after) : after.Sound := by
  have discipline := sound.discipline.eventMove move
  cases move with
  | submit place =>
      refine ⟨discipline, ?_, ?_, sound.running⟩
      · intro requested
        exact absurd requested (Nat.lt_irrefl 0)
      · intro height waiting
        have inside : bridge.eventThread.inApplyBlock = true := by
          rw [place]
          rfl
        have outside := sound.discipline.exclusive inside
        rw [show bridge.proposerThread = .await height from waiting] at outside
        cases outside
  | log place =>
      refine ⟨discipline, ?_, ?_, sound.running⟩
      · dsimp only [logStep, VMControlInterface.logCommitment]
        split
        · exact sound.polite
        · exact sound.polite
      · intro height waiting
        have proposing := sound.awaiting height waiting
        dsimp only [logStep, VMControlInterface.logCommitment]
        split
        · exact proposing
        · exact proposing
  | unspeculated | agree | differ | revert | awaitRewind | rewind | addPair
  | awaitSubmit | commit | commitFailure | awaitLog =>
      exact ⟨discipline, sound.polite, sound.awaiting, sound.running⟩

theorem proposerMove (sound : bridge.Sound) {after : HotstuffVMBridge}
    (move : ProposerMove bridge after) : after.Sound := by
  have discipline := sound.discipline.proposerMove move
  cases move with
  | ask place proposing =>
      exact ⟨discipline, fun _ => proposing, fun _ _ => proposing,
        sound.running⟩
  | take place buffered =>
      refine ⟨discipline, fun _ => ?_, fun _ waiting => (nomatch waiting),
        sound.running⟩
      rcases place with ⟨-, proposing⟩ | waiting
      · exact proposing
      · exact sound.awaiting _ waiting
  | nothing | record | finish =>
      exact ⟨discipline, sound.polite, fun _ waiting => (nomatch waiting),
        sound.running⟩

/-- One round of the VM thread. -/
theorem vmStep (sound : bridge.Sound) :
    ∃ vmInterface, bridge.vmInterface.run = .ok vmInterface ∧
      bridge.vmStep = { bridge with vmInterface := vmInterface } ∧
      { bridge with vmInterface := vmInterface }.Sound := by
  obtain ⟨sameRequests, sameMode, -⟩ :=
    bridge.vmInterface.validateBlocks.logHighestCommitted_frame
  have polite : bridge.vmInterface.validateBlocks.logHighestCommitted.Polite := by
    intro requested
    rw [sameMode]
    exact sound.polite (sameRequests ▸ requested)
  have awaiting : ∀ height, bridge.proposerThread = .await height →
      bridge.vmInterface.validateBlocks.logHighestCommitted.isProposer =
        true := by
    intro height waiting
    rw [sameMode]
    exact sound.awaiting height waiting
  rcases polite.makeProposal with ⟨-, result⟩ | ⟨requests, count, result⟩
  · refine ⟨_, result, ?_, ?_⟩
    · rw [HotstuffVMBridge.vmStep, VMControlInterface.run, result]
    · exact ⟨sound.discipline.keep rfl rfl rfl, polite, awaiting,
        sound.running⟩
  · refine ⟨_, result, ?_, ?_⟩
    · rw [HotstuffVMBridge.vmStep, VMControlInterface.run, result]
    · exact ⟨sound.discipline.keep rfl rfl rfl,
        fun _ => polite (by omega), awaiting, sound.running⟩

theorem next (sound : bridge.Sound) {action : Action}
    (allowed : bridge.Enabled kind action) : (bridge.next action).Sound := by
  cases action with
  | applyBlock height body =>
      exact ⟨sound.discipline.applyBlock allowed.1 allowed.2 height body,
        sound.polite, sound.awaiting, sound.running⟩
  | events => exact sound.eventMove (eventMove_of_enabled allowed)
  | makeEmptyProposal proposalHeight =>
      exact ⟨sound.discipline.makeEmptyProposal allowed.1 proposalHeight,
        sound.polite, fun _ waiting => (nomatch waiting), sound.running⟩
  | getAndApplyNextProposal proposalHeight =>
      exact ⟨sound.discipline.getAndApplyNextProposal allowed.1 allowed.2
          proposalHeight,
        sound.polite, fun _ waiting => (nomatch waiting), sound.running⟩
  | proposer => exact sound.proposerMove (proposerMove_of_enabled allowed)
  | vm =>
      obtain ⟨vmInterface, -, result, after⟩ := sound.vmStep
      rw [show bridge.next .vm = bridge.vmStep from rfl, result]
      exact after
  | putVmInProposerMode =>
      exact ⟨sound.discipline.keep rfl rfl rfl, fun _ => rfl,
        fun _ _ => rfl, sound.running⟩
  | stopProposals =>
      exact ⟨sound.discipline.keep rfl rfl rfl, sound.polite, sound.awaiting,
        sound.running⟩

end Sound

theorem sound_of_reachable {configs : HotstuffConfigs}
    (reached : (bridgeSystem kind configs).Reachable bridge) :
    bridge.Sound := by
  refine reached.invariant Sound ?_ ?_
  · intro start initial
    rw [show start = init configs from initial]
    exact sound_init configs
  · intro state action _ sound allowed
    exact sound.next allowed

/-! ### A call of `apply_block` -/

theorem LockDiscipline.not_holds_events (discipline : bridge.LockDiscipline)
    (outside : bridge.eventThread.inApplyBlock = false) :
    ¬ bridge.speculationMap.mtx.Holds .events := by
  rw [Mutex.Holds, discipline.holders, outside]
  cases bridge.proposerThread.inGetProposal <;> simp

theorem LockDiscipline.holds_events (discipline : bridge.LockDiscipline)
    (inside : bridge.eventThread.inApplyBlock = true) :
    bridge.speculationMap.mtx.Holds .events := by
  rw [Mutex.Holds, discipline.holders, inside]
  simp

/-- While a block is applied, the other threads change neither the speculation
map nor the place of the event thread. -/
theorem Sound.frame_inApplyBlock (sound : bridge.Sound)
    (inside : bridge.eventThread.inApplyBlock = true) {action : Action}
    (allowed : bridge.Enabled kind action) :
    action = .events ∨
      (bridge.next action).speculationMap = bridge.speculationMap ∧
        (bridge.next action).eventThread = bridge.eventThread := by
  have noProposal := sound.discipline.exclusive inside
  have locked : bridge.proposerThread.isIdle = true →
      ¬ bridge.CanLock kind .proposer := by
    intro idle free
    have outside := (sound.discipline.free_for_proposer noProposal free).1
    rw [outside] at inside
    cases inside
  cases action with
  | applyBlock height body =>
      rw [EventThread.eq_idle allowed.1] at inside
      cases inside
  | events => exact Or.inl rfl
  | makeEmptyProposal proposalHeight =>
      exact (locked allowed.1 allowed.2).elim
  | getAndApplyNextProposal proposalHeight =>
      exact (locked allowed.1 allowed.2).elim
  | proposer =>
      have move := proposerMove_of_enabled allowed
      apply Or.inr
      rw [show bridge.next .proposer = bridge.proposerStep from rfl]
      generalize bridge.proposerStep = after at move ⊢
      cases move with
      | nothing place | ask place | record place =>
          rw [place] at noProposal
          cases noProposal
      | take place =>
          rcases place with ⟨place, -⟩ | place
          · rw [place] at noProposal
            cases noProposal
          · rw [place] at noProposal
            cases noProposal
      | finish place => exact ⟨rfl, rfl⟩
  | vm =>
      obtain ⟨vmInterface, -, result, -⟩ := sound.vmStep
      apply Or.inr
      rw [show bridge.next .vm = bridge.vmStep from rfl, result]
      exact ⟨rfl, rfl⟩
  | putVmInProposerMode => exact Or.inr ⟨rfl, rfl⟩
  | stopProposals => exact Or.inr ⟨rfl, rfl⟩

/-- The runs from a state inside `apply_block` until it returns. -/
def applyBlockCall (kind : MutexKind) (start : HotstuffVMBridge) :
    TransitionSystem HotstuffVMBridge Action where
  initial := fun bridge => bridge = start
  enabled := fun bridge action =>
    bridge.eventThread.inApplyBlock = true ∧ bridge.Enabled kind action
  next := HotstuffVMBridge.next

/-- The next step of the event thread locks the mutex that it holds. -/
def Relocks (bridge : HotstuffVMBridge) : Prop :=
  bridge.eventThread.locksNext = true ∧
    bridge.speculationMap.mtx.Holds .events

instance decidableRelocks (bridge : HotstuffVMBridge) :
    Decidable bridge.Relocks :=
  inferInstanceAs (Decidable (_ ∧ _ ∈ _))

/-- However the event thread and the VM thread are scheduled, finitely many of
their steps bring the call of `apply_block` to its return, with the mutex
released. -/
inductive AlwaysReturns (kind : MutexKind) (height : Nat) :
    HotstuffVMBridge → Prop
  | returned {bridge : HotstuffVMBridge}
      (place : bridge.eventThread = .applied height)
      (released : ¬ bridge.speculationMap.mtx.Holds .events) :
      AlwaysReturns kind height bridge
  | step {bridge : HotstuffVMBridge}
      (progress : bridge.Enabled kind .events ∨ bridge.Enabled kind .vm)
      (events : bridge.Enabled kind .events →
        AlwaysReturns kind height bridge.eventStep)
      (vm : bridge.Enabled kind .vm →
        AlwaysReturns kind height bridge.vmStep) :
      AlwaysReturns kind height bridge

/-- The decided block is the lowest one speculated, or none is. -/
def MatchesSpeculation (bridge : HotstuffVMBridge)
    (value : Option VMBlock) : Prop :=
  ∀ lowest ∈ bridge.speculationMap.heightMap.head?,
    getBlockId value = lowest.2

instance decidableMatchesSpeculation (bridge : HotstuffVMBridge)
    (value : Option VMBlock) : Decidable (bridge.MatchesSpeculation value) :=
  inferInstanceAs (Decidable (∀ lowest ∈ _, _ = _))

/-- The VM thread does not disturb the event thread, and runs out of work after
finitely many rounds: it is enough to look at the step of the event thread. -/
theorem AlwaysReturns.of_eventStep {height : Nat}
    (here : SpeculativeExecGadget VMBlockID BridgeThread → EventThread → Prop)
    (ready : ∀ bridge : HotstuffVMBridge,
      here bridge.speculationMap bridge.eventThread →
      bridge.vmInterface.existsWorkToDo = false → bridge.Enabled kind .events)
    (continues : ∀ bridge : HotstuffVMBridge, bridge.Sound →
      here bridge.speculationMap bridge.eventThread →
      bridge.Enabled kind .events → AlwaysReturns kind height bridge.eventStep)
    {bridge : HotstuffVMBridge} (sound : bridge.Sound)
    (place : here bridge.speculationMap bridge.eventThread) :
    AlwaysReturns kind height bridge := by
  induction rounds : bridge.vmInterface.pendingRounds using Nat.strongRecOn
    generalizing bridge with
  | ind rounds induction =>
      apply AlwaysReturns.step
      · cases busy : bridge.vmInterface.existsWorkToDo with
        | false => exact Or.inl (ready bridge place busy)
        | true => exact Or.inr ⟨sound.running, busy⟩
      · intro allowed
        exact continues bridge sound place allowed
      · intro allowed
        obtain ⟨vmInterface, ran, result, after⟩ := sound.vmStep
        have fewer := sound.polite.pendingRounds_run allowed.2 ran
        rw [← rounds] at induction
        rw [result]
        exact induction _ fewer after place rfl

theorem alwaysReturns_submit {height : Nat} {value : Option VMBlock}
    (sound : bridge.Sound) (place : bridge.eventThread = .submit height value) :
    AlwaysReturns kind height bridge := by
  refine AlwaysReturns.of_eventStep
    (fun _ place => place = .submit height value) ?_ ?_ sound place
  · intro bridge place _
    rw [Enabled, place]
    trivial
  · intro bridge sound place allowed
    have result : bridge.eventStep = bridge.submitStep height value := by
      rw [eventStep, place]
    have after : bridge.eventStep.Sound := sound.next allowed
    rw [result] at after ⊢
    exact .returned rfl (after.discipline.not_holds_events rfl)

theorem alwaysReturns_awaitSubmit {height : Nat} {value : Option VMBlock}
    (sound : bridge.Sound)
    (place : bridge.eventThread = .awaitSubmit height value) :
    AlwaysReturns kind height bridge := by
  refine AlwaysReturns.of_eventStep
    (fun _ place => place = .awaitSubmit height value) ?_ ?_ sound place
  · intro bridge place idle
    rw [Enabled, place]
    exact idle
  · intro bridge sound place allowed
    have result : bridge.eventStep =
        { bridge with eventThread := .submit height value } := by
      rw [eventStep, place]
    have after : bridge.eventStep.Sound := sound.next allowed
    rw [result] at after ⊢
    exact alwaysReturns_submit after rfl

theorem alwaysReturns_addPair {height : Nat} {value : Option VMBlock}
    (sound : bridge.Sound)
    (place : bridge.eventThread = .addPair height value) :
    AlwaysReturns kind height bridge := by
  refine AlwaysReturns.of_eventStep
    (fun _ place => place = .addPair height value) ?_ ?_ sound place
  · intro bridge place _
    rw [Enabled, place]
    trivial
  · intro bridge sound place allowed
    have result : bridge.eventStep = bridge.addPairStep height value := by
      rw [eventStep, place]
    have after : bridge.eventStep.Sound := sound.next allowed
    rw [result] at after ⊢
    exact alwaysReturns_awaitSubmit after rfl

theorem alwaysReturns_compare {height : Nat} {value : Option VMBlock}
    (sound : bridge.Sound)
    (place : bridge.eventThread = .compare height value)
    (matching : bridge.MatchesSpeculation value) :
    AlwaysReturns kind height bridge := by
  refine AlwaysReturns.of_eventStep
    (fun map place => place = .compare height value ∧
      ∀ lowest ∈ map.heightMap.head?, getBlockId value = lowest.2)
    ?_ ?_ sound ⟨place, matching⟩
  · intro bridge here _
    rw [Enabled, here.1]
    trivial
  · rintro bridge sound ⟨place, matching⟩ allowed
    have after : bridge.eventStep.Sound := sound.next allowed
    have move := eventMove_of_enabled allowed
    generalize bridge.eventStep = state at move after ⊢
    cases move with
    | unspeculated here =>
        cases place.symm.trans here
        exact alwaysReturns_addPair after rfl
    | agree here =>
        cases place.symm.trans here
        exact .returned rfl (after.discipline.not_holds_events rfl)
    | differ here recorded different =>
        cases place.symm.trans here
        rw [recorded] at matching
        exact (different (matching _ rfl)).elim
    | revert here | awaitRewind here | rewind here | addPair here
    | awaitSubmit here | submit here | commit here | commitFailure here
    | awaitLog here | log here => cases place.symm.trans here

/-- The states of a call of `apply_block` that does not have to revert. -/
def Passing (height : Nat) (bridge : HotstuffVMBridge) : Prop :=
  match bridge.eventThread with
  | .compare other value => other = height ∧ bridge.MatchesSpeculation value
  | .addPair other _ => other = height
  | .awaitSubmit other _ => other = height
  | .submit other _ => other = height
  | .applied other => other = height ∧
      ¬ bridge.speculationMap.mtx.Holds .events
  | _ => False

theorem Passing.alwaysReturns {height : Nat} (passing : bridge.Passing height)
    (sound : bridge.Sound) : AlwaysReturns kind height bridge := by
  unfold Passing at passing
  split at passing
  · rename_i place
    obtain ⟨rfl, matching⟩ := passing
    exact alwaysReturns_compare sound place matching
  · rename_i place
    exact alwaysReturns_addPair sound (passing ▸ place)
  · rename_i place
    exact alwaysReturns_awaitSubmit sound (passing ▸ place)
  · rename_i place
    exact alwaysReturns_submit sound (passing ▸ place)
  · rename_i place
    exact .returned (passing.1 ▸ place) passing.2
  · exact passing.elim

theorem Passing.not_relocks {height : Nat} (passing : bridge.Passing height) :
    ¬ bridge.Relocks := by
  rintro ⟨locks, holds⟩
  unfold Passing at passing
  cases place : bridge.eventThread with
  | revert _ _ => simp [place] at passing
  | applied other =>
      rw [place] at passing
      exact passing.2 holds
  | _ =>
      rw [place] at locks
      cases locks

theorem Passing.next {height : Nat} (passing : bridge.Passing height)
    (sound : bridge.Sound) (inside : bridge.eventThread.inApplyBlock = true)
    {action : Action} (allowed : bridge.Enabled kind action) :
    (bridge.next action).Passing height := by
  rcases sound.frame_inApplyBlock inside allowed with rfl | ⟨sameMap, samePlace⟩
  · have after : (bridge.next .events).Sound := sound.next allowed
    have move : EventMove kind bridge (bridge.next .events) :=
      eventMove_of_enabled allowed
    unfold Passing at passing
    generalize bridge.next .events = state at move after ⊢
    cases move with
    | unspeculated place | addPair place | awaitSubmit place =>
        rw [place] at passing
        first | exact passing | exact passing.1
    | agree place =>
        rw [place] at passing
        exact ⟨passing.1, after.discipline.not_holds_events rfl⟩
    | submit place =>
        rw [place] at passing
        exact ⟨passing, after.discipline.not_holds_events rfl⟩
    | differ place recorded different =>
        rw [place] at passing
        exact (different (passing.2 _ (by rw [recorded]; rfl))).elim
    | commit place | commitFailure place =>
        rw [place] at inside
        cases inside
    | revert place | awaitRewind place | rewind place | awaitLog place
    | log place =>
        rw [place] at passing
        exact passing.elim
  · unfold Passing MatchesSpeculation at passing ⊢
    rw [sameMap, samePlace]
    exact passing

end HotstuffVMBridge

open HotstuffVMBridge in
/-- With a nonrecursive mutex, a call of `apply_block` never locks the mutex
that it holds, and returns with the mutex released, exactly when nothing is
speculated or the decided block is the lowest one speculated. -/
theorem applyBlock_returns_iff {configs : HotstuffConfigs}
    {bridge : HotstuffVMBridge}
    (reached : (bridgeSystem .nonrecursive configs).Reachable bridge)
    {height : Nat} {body : Body}
    (allowed : bridge.Enabled .nonrecursive (.applyBlock height body)) :
    (∀ state, (applyBlockCall .nonrecursive
        (bridge.applyBlock height body)).Reachable state →
      ¬ state.Relocks ∧ AlwaysReturns .nonrecursive height state) ↔
    bridge.MatchesSpeculation (VMBase.tryParse body) := by
  have started : (bridge.applyBlock height body).Sound :=
    (sound_of_reachable reached).next allowed
  constructor
  · intro returns lowest first
    by_contra different
    -- the comparison fails and the next step is `clear`
    have ready : (bridge.applyBlock height body).Enabled .nonrecursive
        .events := trivial
    have inside : (applyBlockCall .nonrecursive
        (bridge.applyBlock height body)).enabled
          (bridge.applyBlock height body) .events := ⟨rfl, ready⟩
    have reachable : (applyBlockCall .nonrecursive
        (bridge.applyBlock height body)).Reachable
          (bridge.applyBlock height body).eventStep :=
      .step (.initial rfl) inside
    have after : (bridge.applyBlock height body).eventStep.Sound :=
      started.next ready
    apply (returns _ reachable).1
    have move := eventMove_of_enabled ready
    generalize (bridge.applyBlock height body).eventStep = state at move after ⊢
    cases move with
    | unspeculated place nothing =>
        have none : bridge.speculationMap.heightMap = [] := nothing
        rw [none] at first
        cases first
    | agree place recorded same =>
        cases place
        have some : bridge.speculationMap.heightMap = _ := recorded
        rw [some] at first
        cases first
        exact (different same).elim
    | differ place => exact ⟨rfl, after.discipline.holds_events rfl⟩
    | revert place | awaitRewind place | rewind place | addPair place
    | awaitSubmit place | submit place | commit place | commitFailure place
    | awaitLog place | log place => cases place
  · intro matching state reachable
    suffices invariant : state.Sound ∧ state.Passing height from
      ⟨invariant.2.not_relocks, invariant.2.alwaysReturns invariant.1⟩
    refine reachable.invariant (fun state => state.Sound ∧ state.Passing height)
      ?_ ?_
    · intro start initial
      rw [show start = bridge.applyBlock height body from initial]
      exact ⟨started, rfl, matching⟩
    · rintro state action - ⟨sound, passing⟩ ⟨inside, allowed⟩
      exact ⟨sound.next allowed, passing.next sound inside allowed⟩

end Locking

/-! ### Concrete calls -/

namespace Symbolic

open HotstuffVMBridge

/-- The proposing thread gets the first block of the VM at height one. -/
def proposeFirst : List Action :=
  [.putVmInProposerMode, .getAndApplyNextProposal 1, .proposer, .vm, .proposer,
    .proposer, .proposer]

/-- The proposing thread makes an empty proposal at height one. -/
def proposeEmpty : List Action :=
  [.makeEmptyProposal 1, .proposer]

end Symbolic

open HotstuffVMBridge in
open scoped Symbolic in
/-- The replica's own block is decided. -/
theorem applyBlock_returns_own :
    ∃ bridge : HotstuffVMBridge,
      (bridgeSystem .nonrecursive Symbolic.defaultConfigs).Reachable bridge ∧
      bridge.Enabled .nonrecursive (.applyBlock 1 [1]) ∧
      bridge.speculationMap.heightMap = [(1, some [1])] ∧
      ∀ state, (applyBlockCall .nonrecursive
          (bridge.applyBlock 1 [1])).Reachable state →
        ¬ state.Relocks ∧ AlwaysReturns .nonrecursive 1 state := by
  have reached : (bridgeSystem .nonrecursive
      Symbolic.defaultConfigs).Reachable
        ((bridgeSystem .nonrecursive Symbolic.defaultConfigs).run
          (.init Symbolic.defaultConfigs) Symbolic.proposeFirst) := by
    refine .run (.initial rfl) ?_
    decide +kernel
  refine ⟨_, reached, by decide +kernel, by decide +kernel, ?_⟩
  exact (applyBlock_returns_iff reached (by decide +kernel)).mpr
    (by decide +kernel)

open HotstuffVMBridge in
open scoped Symbolic in
/-- Another replica's block is decided over a speculated one. -/
theorem applyBlock_relocks_foreign :
    ∃ bridge : HotstuffVMBridge,
      (bridgeSystem .nonrecursive Symbolic.defaultConfigs).Reachable bridge ∧
      bridge.Enabled .nonrecursive (.applyBlock 1 [7]) ∧
      ∃ state, (applyBlockCall .nonrecursive
          (bridge.applyBlock 1 [7])).Reachable state ∧
        state.Relocks ∧ ¬ state.Enabled .nonrecursive .events := by
  have reached : (bridgeSystem .nonrecursive
      Symbolic.defaultConfigs).Reachable
        ((bridgeSystem .nonrecursive Symbolic.defaultConfigs).run
          (.init Symbolic.defaultConfigs) Symbolic.proposeEmpty) := by
    refine .run (.initial rfl) ?_
    decide +kernel
  generalize atCall : (bridgeSystem .nonrecursive Symbolic.defaultConfigs).run
    (.init Symbolic.defaultConfigs) Symbolic.proposeEmpty = bridge at reached
  have inside : (applyBlockCall .nonrecursive
      (bridge.applyBlock 1 [7])).enabled (bridge.applyBlock 1 [7]) .events :=
    ⟨rfl, trivial⟩
  refine ⟨bridge, reached, ?_, _, .step (.initial rfl) inside, ?_, ?_⟩ <;>
    subst atCall <;> decide +kernel

end Hotstuff
