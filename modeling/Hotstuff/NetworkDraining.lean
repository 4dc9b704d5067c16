import Hotstuff.EventDelivery
import Mathlib.Tactic.Ring

/-!
# The network thread comes to rest

Handling one event may put others back into the queue: a block that is stored
releases the events that waited for it, and those may have to wait again, for
another block.  Every release uses up the event that brought the block, though,
and every other event leaves the queue for good or for a request.  Without new
messages the thread therefore comes to rest, whatever the other threads do in
the meantime, after a number of steps that is quadratic in the number of events
that it still has to deal with.
-/

namespace Hotstuff

section Draining

variable [WireTypes] [Externals]

namespace NetworkEventQueue

/-- The events that are neither forwarded nor used up. -/
def unsettled (network : NetworkEventQueue) : Nat :=
  network.queue.pending.length + network.blockFetchManager.parked.length

/-- Bounds the steps that the network thread can take. -/
def drainRank (network : NetworkEventQueue) : Nat :=
  network.unsettled * (network.unsettled + 1) +
    2 * network.queue.pending.length +
      if network.queue.workList.isEmpty then 1 else 0

def Action.isArrival : Action → Bool
  | .vote _ _ | .propose _ _ | .fetched _ _ => true
  | .takeEvents | .handleEvent | .hotstuffEvent | .own _ => false

/-- Steps of the network thread. -/
def Action.isNetworkStep : Action → Bool
  | .takeEvents | .handleEvent => true
  | .vote _ _ | .propose _ _ | .fetched _ _ | .hotstuffEvent | .own _ => false

variable {network : NetworkEventQueue} {event : NetEvent}

/-! ### One event -/

omit [Externals] in
/-- Releasing the events of a request moves them to the queue. -/
theorem unsettled_releaseDependents (network : NetworkEventQueue)
    (p : BlockPtr) :
    (network.releaseDependents p).unsettled = network.unsettled := by
  have split := congrArg Multiset.card
    (network.blockFetchManager.parked_deliverBlock
      (network.core.store.hash p))
  rw [Multiset.card_add, Multiset.coe_card, Multiset.coe_card,
    Multiset.coe_card] at split
  simp only [releaseDependents, unsettled, NetworkEventQueue.deliverBlock,
    NetworkEventQueue.addEvents, GenericEventQueue.pending,
    GenericEventQueue.addEvents, BlockFetchManager.events_deliverBlock,
    List.length_append]
  omega

omit [Externals] in
/-- Forwarding touches neither the queue nor the requests. -/
theorem unsettled_forward (network : NetworkEventQueue) (source : NetEvent)
    (delivered : HotstuffEvent) :
    (network.forward source delivered).unsettled = network.unsettled := by
  unfold NetworkEventQueue.forward
  split <;> rfl

omit [Externals] in
theorem length_parked_addFetchRequest {manager : BlockFetchManager}
    {config : ReplicaConfig} {target : ReplicaID}
    (valid : config.isValidReplica target = true) (hash : Hash)
    (events : List NetEvent) :
    (manager.addFetchRequest config hash target events).parked.length =
      manager.parked.length + events.length := by
  have added : ((manager.addFetchRequest config hash target events).parked :
      Multiset NetEvent) = manager.parked + events :=
    BlockFetchManager.parked_addFetchRequest valid
  have sizes := congrArg Multiset.card added
  rwa [Multiset.card_add, Multiset.coe_card, Multiset.coe_card,
    Multiset.coe_card] at sizes

omit [Externals] in
/-- The event that brought an incomplete block is parked, with those that
waited for the block. -/
theorem unsettled_awaitDependencies (network : NetworkEventQueue)
    (event : NetEvent) (p : BlockPtr) {sender : ReplicaID}
    {missing : BlockStore.MissingDependencies}
    (valid : network.core.config.isValidReplica sender = true)
    (incomplete : missing.any = true) :
    (network.awaitDependencies event p sender missing).queue =
        network.queue ∧
      (network.awaitDependencies event p sender missing).unsettled =
        network.unsettled + 1 := by
  have split := congrArg Multiset.card
    (network.blockFetchManager.parked_deliverBlock
      (network.core.store.hash p))
  rw [Multiset.card_add, Multiset.coe_card, Multiset.coe_card,
    Multiset.coe_card] at split
  obtain ⟨parentHash, justifyHash⟩ := missing
  cases parentHash <;> cases justifyHash <;>
    simp only [NetworkEventQueue.awaitDependencies, unsettled,
      NetworkEventQueue.addFetchRequest, NetworkEventQueue.deliverBlock,
      length_parked_addFetchRequest valid,
      BlockFetchManager.events_deliverBlock, List.length_append,
      List.length_singleton, List.length_nil, true_and]
  case none.none => cases incomplete
  all_goals omega

/-- An event is dealt with, or it goes from the hands of the thread to a
request and the queue stays. -/
theorem unsettled_onEvent (known : event.Known network.core) :
    (network.onEvent event).unsettled = network.unsettled ∨
      (network.onEvent event).unsettled = network.unsettled + 1 ∧
        (network.onEvent event).queue = network.queue := by
  obtain ⟨netEvent, arrival⟩ := event
  cases netEvent with
  | vote cert voter =>
      simp only [NetworkEventQueue.onEvent]
      cases network.core.store.getBlock cert.hash with
      | some p => exact .inl (unsettled_forward network _ _)
      | none =>
          refine .inr ⟨?_, rfl⟩
          simp only [unsettled, NetworkEventQueue.addFetchRequest,
            length_parked_addFetchRequest (isValidReplica_of_getInfo known),
            List.length_singleton]
          omega
  | proposal p proposer =>
      simp only [NetworkEventQueue.onEvent]
      split
      case isTrue incomplete =>
        obtain ⟨sameQueue, parked⟩ := unsettled_awaitDependencies
          (network.insertBlock p) ⟨.proposal p proposer, arrival⟩ p known.2.2
          incomplete
        exact .inr ⟨parked, sameQueue⟩
      case isFalse =>
        left
        rw [unsettled_forward, unsettled_releaseDependents]
        rfl
  | blockReceive p sender =>
      simp only [NetworkEventQueue.onEvent]
      split
      case isTrue incomplete =>
        obtain ⟨sameQueue, parked⟩ := unsettled_awaitDependencies
          (network.insertBlock p) ⟨.blockReceive p sender, arrival⟩ p known.2.2
          incomplete
        exact .inr ⟨parked, sameQueue⟩
      case isFalse =>
        left
        rw [unsettled_releaseDependents]
        rfl

/-! ### Runs without new messages -/

omit [Externals] in
theorem pending_le_unsettled (network : NetworkEventQueue) :
    network.queue.pending.length ≤ network.unsettled :=
  Nat.le_add_right _ _

omit [Externals] in
theorem drainRank_lt (network : NetworkEventQueue) :
    network.drainRank < (network.unsettled + 1) * (network.unsettled + 2) := by
  have inside := network.pending_le_unsettled
  have flag : (if network.queue.workList.isEmpty then 1 else 0) ≤ 1 := by
    split <;> omega
  have expand : (network.unsettled + 1) * (network.unsettled + 2) =
      network.unsettled * (network.unsettled + 1) +
        2 * network.unsettled + 2 := by ring
  rw [drainRank, expand]
  omega

/-- A handled event lowers the rank: what it puts back into the queue is part of
the fewer events that are then unsettled. -/
theorem drainRank_onEvent {held : NetworkEventQueue}
    (known : event.Known held.core)
    (less : network.unsettled = held.unsettled + 1)
    (shorter : network.queue.pending.length = held.queue.pending.length + 1)
    (busy : network.queue.workList.isEmpty = false) :
    (held.onEvent event).drainRank < network.drainRank := by
  have flag : (if (held.onEvent event).queue.workList.isEmpty then 1 else 0) ≤
      1 := by
    split <;> omega
  have before : network.drainRank =
      (held.unsettled + 1) * (held.unsettled + 2) +
        2 * (held.queue.pending.length + 1) := by
    rw [drainRank, busy, less, shorter]
    rfl
  rw [before, drainRank]
  rcases unsettled_onEvent known with settled | ⟨parked, sameQueue⟩
  · have inside := (held.onEvent event).pending_le_unsettled
    have expand : (held.unsettled + 1) * (held.unsettled + 2) =
        held.unsettled * (held.unsettled + 1) + 2 * held.unsettled + 2 := by
      ring
    rw [settled] at inside ⊢
    omega
  · have same : held.unsettled + 1 + 1 = held.unsettled + 2 := rfl
    rw [sameQueue] at flag
    rw [parked, sameQueue, same]
    omega

theorem drainRank_handleEvent (accounts : network.Accounts [])
    (busy : network.queue.workList.isEmpty = false) :
    network.handleEvent.drainRank < network.drainRank := by
  cases work : network.queue.workList with
  | nil =>
      rw [work] at busy
      cases busy
  | cons event rest =>
      have taken := accounts.takeFirst work
      have known := taken.known_inHand (List.mem_singleton_self event)
      have shorter : network.queue.pending.length =
          (rest ++ network.queue.events).length + 1 := by
        rw [GenericEventQueue.pending, work]
        rfl
      rw [NetworkEventQueue.handleEvent, work]
      refine drainRank_onEvent known ?_ shorter busy
      rw [unsettled, shorter, Nat.add_right_comm]
      rfl

/-- Steps of the network thread lower the rank; without a new message the other
threads keep it. -/
theorem drainRank_next (accounts : network.Accounts []) {action : Action}
    (enabled : network.Enabled action) (noArrival : action.isArrival = false) :
    (network.next action).drainRank +
        (if action.isNetworkStep then 1 else 0) ≤ network.drainRank := by
  cases action with
  | vote | propose | fetched => cases noArrival
  | takeEvents =>
      obtain ⟨-, idle, waiting⟩ := enabled
      have nothingLeft := List.isEmpty_iff.mp idle
      change NetworkEventQueue.drainRank
        { network with queue := network.queue.takeEvents } + 1 ≤ _
      simp only [drainRank, unsettled, GenericEventQueue.pending,
        GenericEventQueue.takeEvents, nothingLeft, waiting, List.append_nil,
        List.nil_append, List.isEmpty_nil, if_true, Bool.false_eq_true,
        if_false]
      omega
  | handleEvent => exact drainRank_handleEvent accounts enabled.2
  | hotstuffEvent =>
      simp only [NetworkEventQueue.next, NetworkEventQueue.takeHotstuffEvent]
      cases network.hotstuffEventQueue[network.taken]? <;> exact Nat.le_refl _
  | own event => exact Nat.le_refl _

end NetworkEventQueue

variable {selfId : ReplicaID} {config : ReplicaConfig} {secretKey : SecretKey}
  {network : NetworkEventQueue}

/-- The steps of the network thread in a run without new messages, and the rank
at its end. -/
theorem countP_networkSteps
    (reachable : (deliverySystem selfId config secretKey).Reachable network)
    {actions : List NetworkEventQueue.Action}
    (allowed : (deliverySystem selfId config secretKey).EnabledAlong network
      actions)
    (noArrivals : ∀ action ∈ actions, action.isArrival = false) :
    actions.countP NetworkEventQueue.Action.isNetworkStep +
        ((deliverySystem selfId config secretKey).run network
          actions).drainRank ≤
      network.drainRank := by
  induction actions generalizing network with
  | nil => exact (Nat.zero_add _).le
  | cons action actions ih =>
      have step := NetworkEventQueue.drainRank_next
        (accounts_of_reachable reachable) allowed.1.1
        (noArrivals action (List.mem_cons_self ..))
      have rest := ih (reachable.step allowed.1) allowed.2
        fun other member => noArrivals other (List.mem_cons_of_mem _ member)
      change _ + ((deliverySystem selfId config secretKey).run
        (network.next action) actions).drainRank ≤
          (network.next action).drainRank at rest
      change _ + ((deliverySystem selfId config secretKey).run
        (network.next action) actions).drainRank ≤ _
      rw [List.countP_cons]
      omega

/-- As long as the replica runs, something in the queue means that the network
thread has a step to take. -/
theorem NetworkEventQueue.networkStep_of_pending
    (running : network.failed = none ∧ network.core.failed = none)
    (busy : network.queue.pending ≠ []) :
    ∃ action : NetworkEventQueue.Action, action.isNetworkStep = true ∧
      network.Enabled action ∧ network.NotRequested action := by
  cases work : network.queue.workList with
  | cons event rest =>
      exact ⟨.handleEvent, rfl, ⟨running, by rw [work]; rfl⟩, trivial⟩
  | nil =>
      refine ⟨.takeEvents, rfl, ⟨running, by rw [work]; rfl, ?_⟩, trivial⟩
      rw [GenericEventQueue.pending, work] at busy
      cases events : network.queue.events with
      | nil => exact (busy events).elim
      | cons event rest => rfl

/-- Without new messages, and whatever the other threads do, the network thread
takes fewer than `(n + 1) * (n + 2)` steps, where `n` is the number of events
that were unsettled.  It has a step to take as long as its queue holds
something, and once the queue is empty every vote and every proposal was
forwarded or waits for a block that is not stored. -/
theorem network_thread_settles
    (reachable : (deliverySystem selfId config secretKey).Reachable network)
    {actions : List NetworkEventQueue.Action}
    (allowed : (deliverySystem selfId config secretKey).EnabledAlong network
      actions)
    (noArrivals : ∀ action ∈ actions, action.isArrival = false)
    {after : NetworkEventQueue}
    (ends : (deliverySystem selfId config secretKey).run network actions =
      after) :
    actions.countP NetworkEventQueue.Action.isNetworkStep <
        (network.unsettled + 1) * (network.unsettled + 2) ∧
      (after.queue.pending ≠ [] →
        after.failed = none ∧ after.core.failed = none →
        ∃ action : NetworkEventQueue.Action, action.isNetworkStep = true ∧
          (deliverySystem selfId config secretKey).enabled after action) ∧
      (after.queue.pending = [] →
        ∀ event ∈ after.received, event.isMessage = true →
          (∃ delivered, (event, delivered) ∈ after.hotstuffEventQueue) ∨
          ∃ hash, after.core.store.getBlock hash = none ∧
            event ∈ after.blockFetchManager.waiting hash) := by
  have counted := countP_networkSteps reachable allowed noArrivals
  have bounded := network.drainRank_lt
  have reached := reachable.run allowed
  rw [ends] at counted reached
  refine ⟨by omega, ?_, ?_⟩
  · intro busy running
    exact after.networkStep_of_pending running busy
  · intro idle event arrived message
    have accounts := accounts_of_reachable reached
    rcases accounts.parked_or_forwarded idle arrived message with
      parked | forwarded
    · obtain ⟨hash, requested, waits⟩ :=
        BlockFetchManager.exists_waiting_of_mem_parked parked
      exact .inr ⟨hash, accounts.absent hash requested, waits⟩
    · exact .inl forwarded

end Draining

/-! ### A vote before its block before its parent -/

namespace Symbolic

open NetworkEventQueue

/-- A vote on a block, the block, and its fetched parent arrive. -/
def parentLast : List Action :=
  [.vote (voteOf 2 secondHash) 2, .propose (emptyOn firstHash) 1,
    .fetched (emptyOn zeroHash) 1]

/-- The vote is handled three times and the block twice. -/
def settling : List Action :=
  [.takeEvents, .handleEvent, .handleEvent, .handleEvent, .takeEvents,
    .handleEvent, .handleEvent, .takeEvents, .handleEvent]

end Symbolic

open scoped Symbolic in
open Symbolic in
theorem network_thread_settles_parentLast :
    ∃ network after : NetworkEventQueue, network.unsettled = 3 ∧
      fourthOfNetwork.Reachable network ∧
      fourthOfNetwork.run network settling = after ∧
      after.queue.pending = [] ∧
      after.forwardedEvents.map NetEvent.arrival = [1, 0] ∧
      settling.countP NetworkEventQueue.Action.isNetworkStep <
        (network.unsettled + 1) * (network.unsettled + 2) := by
  have reachable : fourthOfNetwork.Reachable (fourthOfNetwork.run
      (.init 0 fourReplicas (0 : Nat)) parentLast) := by
    refine .run (.initial rfl) ?_
    decide +kernel
  have allowed : fourthOfNetwork.EnabledAlong (fourthOfNetwork.run
      (.init 0 fourReplicas (0 : Nat)) parentLast) settling := by
    decide +kernel
  refine ⟨_, _, ?_, reachable, rfl, ?_, ?_,
    (network_thread_settles reachable allowed (by decide) rfl).1⟩
  · decide +kernel
  · apply List.isEmpty_iff.mp
    decide +kernel
  · decide +kernel

end Hotstuff
