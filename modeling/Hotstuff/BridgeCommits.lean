import Hotstuff.BridgeLocking

/-!
# Commits in the bridge

The event thread passes the decided blocks to the bridge in the order of their
heights.  Then the block between `apply_block` and `notify_vm_of_commitment` is
always the one after the highest committed height, and the speculation map has
its entry when it commits, whatever the other threads record in between.
-/

namespace Hotstuff

section Commits

variable [VMBase]

namespace EventThread

/-- The height of the block that was passed to `apply_block` and has not
committed yet. -/
def inHand : EventThread → Option Nat
  | .compare height _ | .revert height _ | .awaitRewind height _ => some height
  | .rewind height _ | .addPair height _ | .awaitSubmit height _ => some height
  | .submit height _ | .applied height => some height
  | _ => none

/-- Whether anything is speculated when the event thread is at this place. -/
def Fits (heightMap : List (Nat × VMBlockID)) : EventThread → Prop
  | .awaitRewind _ _ | .rewind _ _ | .addPair _ _ => heightMap = []
  | .awaitSubmit _ _ | .submit _ _ | .applied _ => heightMap ≠ []
  | .failed _ => False
  | _ => True

end EventThread

namespace HotstuffVMBridge

variable {kind : MutexKind} {bridge : HotstuffVMBridge}

/-- The blocks were passed to the bridge in the order of their heights. -/
structure InOrder (bridge : HotstuffVMBridge) : Prop where
  sound : bridge.Sound
  contiguous : bridge.speculationMap.Contiguous
  follows : ∀ height, bridge.eventThread.inHand = some height →
    height = bridge.speculationMap.highestCommittedHeight + 1
  fits : bridge.eventThread.Fits bridge.speculationMap.heightMap

/-- The height of the last block passed to the bridge. -/
def handled (bridge : HotstuffVMBridge) : Nat :=
  bridge.speculationMap.highestCommittedHeight +
    bridge.eventThread.inHand.toList.length

theorem inOrder_init (configs : HotstuffConfigs) : (init configs).InOrder where
  sound := sound_init configs
  contiguous := SpeculativeExecGadget.contiguous_init
  follows := nofun
  fits := trivial

/-- The height that the next step of the event thread commits. -/
def committing (bridge : HotstuffVMBridge) : Action → Option Nat
  | .events =>
      match bridge.eventThread with
      | .applied height => some height
      | _ => none
  | _ => none

/-- What the proposing thread, the VM thread and the application do to the
speculation map: they record at its end, and never during `apply_block`. -/
structure Records (bridge after : HotstuffVMBridge) : Prop where
  place : after.eventThread = bridge.eventThread
  committed : after.speculationMap.highestCommittedHeight =
    bridge.speculationMap.highestCommittedHeight
  recorded : ∃ recorded, after.speculationMap.heightMap =
    bridge.speculationMap.heightMap ++ recorded
  contiguous : bridge.speculationMap.Contiguous →
    after.speculationMap.Contiguous

theorem Records.of_same {after : HotstuffVMBridge}
    (place : after.eventThread = bridge.eventThread)
    (map : after.speculationMap = bridge.speculationMap) :
    Records bridge after := by
  refine ⟨place, ?_, ⟨[], ?_⟩, ?_⟩ <;> rw [map]
  · exact (List.append_nil _).symm
  · exact id

theorem records_proposer (allowed : bridge.Enabled kind .proposer) :
    Records bridge bridge.proposerStep := by
  have move := proposerMove_of_enabled allowed
  generalize bridge.proposerStep = after at move ⊢
  cases move with
  | nothing | ask | take | finish => exact .of_same rfl rfl
  | record =>
      refine ⟨rfl, ?_, ?_, ?_⟩
      · exact SpeculativeExecGadget.highestCommittedHeight_addHeightPair _ _
      · exact SpeculativeExecGadget.heightMap_addHeightPair _ _
      · intro contiguous
        exact SpeculativeExecGadget.contiguous_unlock.mpr
          (contiguous.addHeightPair _ _)

theorem records_makeEmptyProposal (proposalHeight : Nat) :
    Records bridge (bridge.makeEmptyProposal proposalHeight) where
  place := rfl
  committed := SpeculativeExecGadget.highestCommittedHeight_addHeightPair _ _
  recorded := SpeculativeExecGadget.heightMap_addHeightPair _ _
  contiguous := by
    intro contiguous
    apply SpeculativeExecGadget.contiguous_unlock.mpr
    apply SpeculativeExecGadget.Contiguous.addHeightPair
    exact (SpeculativeExecGadget.contiguous_lock _).mpr contiguous

theorem records_getAndApplyNextProposal (proposalHeight : Nat) :
    Records bridge (bridge.getAndApplyNextProposal proposalHeight) where
  place := rfl
  committed := rfl
  recorded := ⟨[], (List.append_nil _).symm⟩
  contiguous := (SpeculativeExecGadget.contiguous_lock _).mpr

/-- Every action that is not of the event thread. -/
theorem Sound.records (sound : bridge.Sound) {action : Action}
    (allowed : bridge.Enabled kind action) :
    (∃ height body, action = .applyBlock height body) ∨ action = .events ∨
      Records bridge (bridge.next action) := by
  cases action with
  | applyBlock height body => exact .inl ⟨height, body, rfl⟩
  | events => exact .inr (.inl rfl)
  | makeEmptyProposal proposalHeight =>
      exact .inr (.inr (records_makeEmptyProposal proposalHeight))
  | getAndApplyNextProposal proposalHeight =>
      exact .inr (.inr (records_getAndApplyNextProposal proposalHeight))
  | proposer => exact .inr (.inr (records_proposer allowed))
  | vm =>
      obtain ⟨vmInterface, -, result, -⟩ := sound.vmStep
      refine .inr (.inr ?_)
      rw [show bridge.next .vm = bridge.vmStep from rfl, result]
      exact .of_same rfl rfl
  | putVmInProposerMode => exact .inr (.inr (.of_same rfl rfl))
  | stopProposals => exact .inr (.inr (.of_same rfl rfl))

namespace InOrder

/-- A decided block is recorded in the empty map, at the head. -/
theorem addPair_atHead (inOrder : bridge.InOrder) {height : Nat}
    {value : Option VMBlock}
    (place : bridge.eventThread = .addPair height value) :
    bridge.speculationMap.heightMap = [] ∧
      height = bridge.speculationMap.speculationHeadHotstuffHeight := by
  have nothing : bridge.speculationMap.heightMap = [] := by
    have fits := inOrder.fits
    rw [place] at fits
    exact fits
  refine ⟨nothing, ?_⟩
  rw [inOrder.contiguous.head, nothing,
    inOrder.follows height (by rw [place]; rfl)]
  rfl

/-- A step of the event thread commits the height in hand or nothing. -/
theorem eventStep (inOrder : bridge.InOrder)
    (allowed : bridge.Enabled kind .events) :
    bridge.eventStep.InOrder ∧ bridge.eventStep.handled = bridge.handled ∧
      bridge.eventStep.speculationMap.highestCommittedHeight =
        (bridge.committing .events).getD
          bridge.speculationMap.highestCommittedHeight := by
  have sound : bridge.eventStep.Sound := inOrder.sound.next allowed
  have move := eventMove_of_enabled allowed
  have contiguous := inOrder.contiguous
  have follows := inOrder.follows
  have fits := inOrder.fits
  unfold handled committing
  generalize bridge.eventStep = after at sound move ⊢
  cases move with
  | unspeculated place nothing =>
      rw [place] at follows ⊢
      exact ⟨⟨sound, contiguous, follows, nothing⟩, rfl, rfl⟩
  | agree place recorded =>
      rw [place] at follows ⊢
      refine ⟨⟨sound, SpeculativeExecGadget.contiguous_unlock.mpr contiguous,
        follows, ?_⟩, rfl, rfl⟩
      exact (recorded ▸ List.cons_ne_nil _ _ :
        bridge.speculationMap.heightMap ≠ [])
  | differ place | awaitRewind place | rewind place | awaitSubmit place
  | awaitLog place | log place =>
      rw [place] at follows fits ⊢
      exact ⟨⟨sound, contiguous, follows, fits⟩, rfl, rfl⟩
  | revert place =>
      rw [place] at follows ⊢
      exact ⟨⟨sound, SpeculativeExecGadget.contiguous_clear _, follows, rfl⟩,
        rfl, rfl⟩
  | @addPair height value place =>
      obtain ⟨-, atHead⟩ := inOrder.addPair_atHead place
      rw [place] at follows ⊢
      refine ⟨⟨sound, contiguous.addHeightPair _ _, ?_, ?_⟩, ?_, ?_⟩ <;>
        dsimp only [addPairStep] <;>
        rw [SpeculativeExecGadget.addHeightPair_head atHead]
      · exact follows
      · exact List.append_ne_nil_of_right_ne_nil _ (List.cons_ne_nil _ _)
      · rfl
      · rfl
  | submit place =>
      rw [place] at follows fits ⊢
      exact ⟨⟨sound, SpeculativeExecGadget.contiguous_unlock.mpr contiguous,
        follows, fits⟩, rfl, rfl⟩
  | @commit height committedBlockId remaining place _ popped =>
      rw [place] at follows fits ⊢
      obtain ⟨front, rest, recorded⟩ := List.exists_cons_of_ne_nil fits
      obtain ⟨-, committed, after⟩ := contiguous.onCommitHotstuff recorded
      rw [← follows height rfl] at committed
      obtain ⟨-, rfl⟩ := Prod.mk.inj (Except.ok.inj
        (popped.symm.trans committed))
      exact ⟨⟨sound, follows height rfl ▸ after, nofun, trivial⟩,
        follows height rfl, rfl⟩
  | commitFailure place raised =>
      rw [place] at follows fits
      obtain ⟨front, rest, recorded⟩ := List.exists_cons_of_ne_nil fits
      obtain ⟨-, committed, -⟩ := contiguous.onCommitHotstuff recorded
      rw [← follows _ rfl, raised] at committed
      cases committed

theorem records (inOrder : bridge.InOrder) {action : Action}
    (allowed : bridge.Enabled kind action) (notEvents : action ≠ .events)
    (records : Records bridge (bridge.next action)) :
    (bridge.next action).InOrder ∧
      (bridge.next action).handled = bridge.handled := by
  have sound := inOrder.sound.next allowed
  have fits := inOrder.fits
  obtain ⟨place, committed, ⟨recorded, extended⟩, contiguous⟩ := records
  refine ⟨⟨sound, contiguous inOrder.contiguous, ?_, ?_⟩, ?_⟩
  · rw [place, committed]
    exact inOrder.follows
  · cases inside : bridge.eventThread.inApplyBlock with
    | true =>
        rcases inOrder.sound.frame_inApplyBlock inside allowed with
          same | ⟨sameMap, -⟩
        · exact (notEvents same).elim
        · rw [place, sameMap]
          exact fits
    | false =>
        -- outside only a block about to commit needs its entry
        rw [place, extended]
        cases here : bridge.eventThread with
        | applied height =>
            rw [here] at fits
            exact List.append_ne_nil_of_left_ne_nil fits recorded
        | failed message =>
            rw [here] at fits
            exact fits.elim
        | idle | awaitLog | logCommitment => exact trivial
        | compare | revert | awaitRewind | rewind | addPair | awaitSubmit
        | submit =>
            rw [here] at inside
            cases inside
  · rw [handled, handled, place, committed]

/-- Every action but a call of `apply_block`. -/
theorem next (inOrder : bridge.InOrder) {action : Action}
    (allowed : bridge.Enabled kind action)
    (otherCall : ∀ height body, action ≠ .applyBlock height body) :
    (bridge.next action).InOrder ∧
      (bridge.next action).handled = bridge.handled ∧
      (bridge.next action).speculationMap.highestCommittedHeight =
        (bridge.committing action).getD
          bridge.speculationMap.highestCommittedHeight := by
  by_cases events : action = .events
  · subst events
    exact inOrder.eventStep allowed
  · rcases inOrder.sound.records allowed with
      ⟨height, body, call⟩ | same | recorded
    · exact (otherCall height body call).elim
    · exact (events same).elim
    · obtain ⟨after, handled⟩ := inOrder.records allowed events recorded
      have nothing : bridge.committing action = none := by
        cases action with
        | events => exact (events rfl).elim
        | _ => rfl
      exact ⟨after, handled, by rw [recorded.committed, nothing]; rfl⟩

/-- The next block is passed to the bridge. -/
theorem applyBlock (inOrder : bridge.InOrder) {height : Nat} {body : Body}
    (allowed : bridge.Enabled kind (.applyBlock height body))
    (follows : height = bridge.speculationMap.highestCommittedHeight + 1) :
    (bridge.applyBlock height body).InOrder ∧
      (bridge.applyBlock height body).handled = bridge.handled + 1 := by
  refine ⟨⟨inOrder.sound.next allowed,
    (SpeculativeExecGadget.contiguous_lock _).mpr inOrder.contiguous, ?_,
    trivial⟩, ?_⟩
  · intro other same
    cases same
    exact follows
  · rw [handled, handled, EventThread.eq_idle allowed.1]
    rfl

/-- The lowest entry of the speculation map is for the block that it is compared
with. -/
theorem lowest (inOrder : bridge.InOrder) {height : Nat}
    (inHand : bridge.eventThread.inHand = some height)
    {lowest : Nat × VMBlockID} {higher : List (Nat × VMBlockID)}
    (recorded : bridge.speculationMap.heightMap = lowest :: higher) :
    lowest.1 = height := by
  rw [inOrder.follows height inHand]
  exact (inOrder.contiguous.onCommitHotstuff recorded).1

end InOrder

end HotstuffVMBridge

end Commits

end Hotstuff
