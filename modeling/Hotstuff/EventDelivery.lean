import Hotstuff.BlockInsertions
import Hotstuff.EventAccounts

/-!
# Delivery of network events

No event is lost, and none is delivered twice.  An event that is parked waits
for a missing block that the block of the event depends on, so the block of the
event is missing too.  When the network queue is empty, an event whose block is
in the store must therefore have been forwarded.
-/

namespace Hotstuff

section Delivery

variable [WireTypes] [Externals]

namespace NetworkEventQueue

/-- What the hotstuff queue has got for an event that arrived. -/
def forwardedAs (network : NetworkEventQueue) (event : NetEvent) :
    List HotstuffEvent :=
  (network.hotstuffEventQueue.filter fun entry =>
    entry.1.arrival == event.arrival).map Prod.snd

/-- The occurrences of an event in a request. -/
def parkedUnder (network : NetworkEventQueue) (event : NetEvent)
    (hash : Hash) : List NetEvent :=
  (network.blockFetchManager.waiting hash).filter fun other =>
    other.arrival == event.arrival

/-- The event was forwarded once, and it is not parked. -/
def ForwardedOnce (network : NetworkEventQueue) (event : NetEvent) : Prop :=
  (∃ delivered, network.forwardedAs event = [delivered] ∧
    delivered.Delivers network.core.store event) ∧
  ∀ hash, network.parkedUnder event hash = []

/-- The event is parked once, in one request, and it was not forwarded. -/
def ParkedOnce (network : NetworkEventQueue) (event : NetEvent) : Prop :=
  network.forwardedAs event = [] ∧
  ∃ hash ∈ network.blockFetchManager.outstandingReqs,
    network.parkedUnder event hash = [event] ∧
    ∀ other, other ≠ hash → network.parkedUnder event other = []

/-- Nothing that is requested is stored, and every vote and proposal was
forwarded or is parked, as its block is in the store or not. -/
structure EventsDelivered (network : NetworkEventQueue) : Prop where
  absent : ∀ hash ∈ network.blockFetchManager.outstandingReqs,
    network.core.store.getBlock hash = none
  forwarded : ∀ event ∈ network.received, event.isMessage = true →
    (network.core.store.getBlock
      (event.blockHash network.core.store)).isSome = true →
    network.ForwardedOnce event
  parked : ∀ event ∈ network.received, event.isMessage = true →
    network.core.store.getBlock (event.blockHash network.core.store) = none →
    network.ParkedOnce event

variable {network : NetworkEventQueue} {inHand : List NetEvent}
  {event : NetEvent}

omit [WireTypes] [Externals] in
/-- In a list with distinct keys an element is the only one with its key. -/
theorem filter_key_of_nodup {Element : Type*} (key : Element → Nat)
    {elements : List Element} (distinct : (elements.map key).Nodup)
    {element : Element} (member : element ∈ elements) :
    elements.filter (fun other => key other == key element) = [element] := by
  induction elements with
  | nil => cases member
  | cons head rest ih =>
      obtain ⟨headNew, restDistinct⟩ := List.nodup_cons.mp distinct
      rcases List.mem_cons.mp member with rfl | later
      · have none : rest.filter (fun other => key other == key element) = [] := by
          apply List.filter_eq_nil_iff.mpr
          intro other inRest same
          apply headNew
          rw [← eq_of_beq same]
          exact List.mem_map_of_mem inRest
        rw [List.filter_cons, if_pos (beq_self_eq_true _), none]
      · have different : ¬ (key head == key element) = true := by
          intro same
          apply headNew
          rw [eq_of_beq same]
          exact List.mem_map_of_mem later
        rw [List.filter_cons, if_neg different]
        exact ih restDistinct later

/-- An event has one place among the parked and the forwarded ones. -/
theorem Accounts.distinct (accounts : network.Accounts inHand) :
    ((network.blockFetchManager.parked ++ network.forwardedEvents).map
      NetEvent.arrival).Nodup := by
  obtain ⟨used, -, balance⟩ := accounts.balance
  have all : (network.received.map NetEvent.arrival).Nodup := by
    rw [accounts.numbered]
    exact List.nodup_range
  rw [← Multiset.coe_nodup, ← Multiset.map_coe] at all ⊢
  apply Multiset.nodup_of_le (Multiset.map_le_map _) all
  apply Multiset.le_iff_exists_add.mpr
  refine ⟨inHand + network.queue.pending + used, ?_⟩
  rw [balance, ← Multiset.coe_add]
  abel

theorem stored_of_delivers {store : BlockStore} (tree : store.WellFormed)
    {delivered : HotstuffEvent} (delivers : delivered.Delivers store event) :
    (store.getBlock (event.blockHash store)).isSome = true := by
  obtain ⟨netEvent, arrival⟩ := event
  cases delivered with
  | vote cert p rid =>
      obtain ⟨rfl, found⟩ := delivers
      exact Option.isSome_iff_exists.mpr ⟨p, found⟩
  | proposal p rid =>
      obtain ⟨rfl, linked⟩ := delivers
      exact tree.linkedCached p linked

/-- A parked event waits for a block that is missing, so its own block is
missing. -/
theorem Accounts.missing_of_waiting (collisionFree : CollisionFree)
    (accounts : network.Accounts inHand) {hash : Hash}
    (waits : event ∈ network.blockFetchManager.waiting hash) :
    network.core.store.getBlock (event.blockHash network.core.store) =
      none := by
  have requested : hash ∈ network.blockFetchManager.outstandingReqs := by
    by_contra notRequested
    rw [BlockFetchManager.waiting_of_notMem notRequested] at waits
    cases waits
  rw [← Option.not_isSome_iff_eq_none]
  intro stored
  have dependencyStored := accounts.tree.stored_of_dependsOn collisionFree
    (accounts.depends hash event waits) stored
  rw [accounts.absent hash requested] at dependencyStored
  cases dependencyStored

theorem Accounts.parked_or_forwarded (accounts : network.Accounts [])
    (idle : network.queue.pending = []) (arrived : event ∈ network.received)
    (message : event.isMessage = true) :
    event ∈ network.blockFetchManager.parked ∨
      ∃ delivered, (event, delivered) ∈ network.hotstuffEventQueue := by
  obtain ⟨used, fetched, balance⟩ := accounts.balance
  have placed : event ∈ (network.received : Multiset NetEvent) := arrived
  rw [balance, idle] at placed
  simp only [Multiset.mem_add, Multiset.mem_coe, List.not_mem_nil,
    false_or] at placed
  rcases placed with (parked | forwarded) | wasUsed
  · exact .inl parked
  · obtain ⟨⟨source, delivered⟩, member, rfl⟩ := List.mem_map.mp forwarded
    exact .inr ⟨delivered, member⟩
  · rw [fetched event wasUsed] at message
    cases message

theorem Accounts.forwardedOnce (accounts : network.Accounts [])
    {delivered : HotstuffEvent}
    (member : (event, delivered) ∈ network.hotstuffEventQueue) :
    network.ForwardedOnce event := by
  obtain ⟨-, forwardedDistinct, apart⟩ := List.nodup_append'.mp
    (List.map_append ▸ accounts.distinct)
  constructor
  · refine ⟨delivered, ?_, accounts.delivers _ member⟩
    have distinct : (network.hotstuffEventQueue.map
        fun entry => entry.1.arrival).Nodup := by
      rwa [forwardedEvents, List.map_map] at forwardedDistinct
    rw [forwardedAs, filter_key_of_nodup (fun entry => entry.1.arrival) distinct
      member]
    rfl
  · intro hash
    apply List.filter_eq_nil_iff.mpr
    intro other waits same
    have parked := BlockFetchManager.mem_parked_of_waiting waits
    apply apart (List.mem_map_of_mem parked)
    rw [eq_of_beq same]
    exact List.mem_map_of_mem (List.mem_map_of_mem member)

theorem Accounts.parkedOnce (accounts : network.Accounts [])
    (parked : event ∈ network.blockFetchManager.parked) :
    network.ParkedOnce event := by
  obtain ⟨parkedDistinct, -, apart⟩ := List.nodup_append'.mp
    (List.map_append ▸ accounts.distinct)
  constructor
  · have none : (network.hotstuffEventQueue.filter fun entry =>
        entry.1.arrival == event.arrival) = [] := by
      apply List.filter_eq_nil_iff.mpr
      intro entry member same
      apply apart (List.mem_map_of_mem parked)
      rw [← eq_of_beq same]
      exact List.mem_map_of_mem (List.mem_map_of_mem member)
    rw [forwardedAs, none]
    rfl
  · obtain ⟨hash, requested, waits⟩ :=
      BlockFetchManager.exists_waiting_of_mem_parked parked
    refine ⟨hash, requested, ?_⟩
    -- the request and the others have no arrival in common
    have apart : ((network.blockFetchManager.waiting hash ++
        (network.blockFetchManager.deliverBlock hash).2.parked).map
          NetEvent.arrival).Nodup := by
      rw [← Multiset.coe_nodup, ← Multiset.map_coe] at parkedDistinct ⊢
      rwa [← Multiset.coe_add,
        ← network.blockFetchManager.parked_deliverBlock hash]
    obtain ⟨here, -, elsewhere⟩ := List.nodup_append'.mp
      (List.map_append ▸ apart)
    constructor
    · exact filter_key_of_nodup NetEvent.arrival here waits
    · intro other different
      apply List.filter_eq_nil_iff.mpr
      intro copy waits' same
      have kept : copy ∈ (network.blockFetchManager.deliverBlock
          hash).2.waiting other := by
        rwa [BlockFetchManager.waiting_deliverBlock, if_neg different]
      apply elsewhere (List.mem_map_of_mem waits)
      rw [← eq_of_beq same]
      exact List.mem_map_of_mem (BlockFetchManager.mem_parked_of_waiting kept)

end NetworkEventQueue

/-- Whatever arrives in whatever order, when the network queue is empty every
vote and every proposal has been forwarded once, or waits in one request until
its block can be stored. -/
theorem network_events_delivered (collisionFree : CollisionFree)
    {selfId : ReplicaID} {config : ReplicaConfig} {secretKey : SecretKey}
    {network : NetworkEventQueue}
    (reachable : (deliverySystem selfId config secretKey).Reachable network)
    (idle : network.queue.pending = []) : network.EventsDelivered := by
  have accounts := accounts_of_reachable reachable
  refine ⟨accounts.absent, ?_, ?_⟩
  · intro event arrived message stored
    rcases accounts.parked_or_forwarded idle arrived message with
      parked | ⟨delivered, member⟩
    · obtain ⟨hash, -, waits⟩ :=
        BlockFetchManager.exists_waiting_of_mem_parked parked
      rw [accounts.missing_of_waiting collisionFree waits] at stored
      cases stored
    · exact accounts.forwardedOnce member
  · intro event arrived message missing
    rcases accounts.parked_or_forwarded idle arrived message with
      parked | ⟨delivered, member⟩
    · exact accounts.parkedOnce parked
    · have stored := NetworkEventQueue.stored_of_delivers accounts.tree
        (accounts.delivers _ member)
      rw [missing] at stored
      cases stored

end Delivery

/-! ### A child before its parent -/

namespace Symbolic

open NetworkEventQueue

def thirdHash : Hash := hashHeader (emptyOn secondHash).header

/-- A vote on a block arrives before the block, the block before its parent, and
a vote on a block that does not arrive at all; then the parent is fetched. -/
def outOfOrder : List Action :=
  [.vote (voteOf 2 secondHash) 2, .takeEvents, .handleEvent,
    .propose (emptyOn firstHash) 1, .vote (voteOf 3 thirdHash) 3, .takeEvents,
    .handleEvent, .handleEvent, .fetched (emptyOn zeroHash) 1, .takeEvents,
    .handleEvent, .takeEvents, .handleEvent, .handleEvent, .takeEvents,
    .handleEvent]

/-- Replica `0` of four, which mints nothing that was requested. -/
def fourthOfNetwork : TransitionSystem NetworkEventQueue Action :=
  deliverySystem 0 fourReplicas (0 : Nat)

instance decidableFourthOfNetwork (network : NetworkEventQueue)
    (action : Action) : Decidable (fourthOfNetwork.enabled network action) :=
  inferInstanceAs (Decidable (network.Enabled action ∧
    network.NotRequested action))

end Symbolic

open scoped Symbolic in
open Symbolic in
theorem events_delivered_outOfOrder :
    ∃ network, fourthOfNetwork.Reachable network ∧
      network.queue.pending = [] ∧
      network.received.map NetEvent.arrival = [0, 1, 2, 3] ∧
      network.forwardedEvents.map NetEvent.arrival = [1, 0] ∧
      network.blockFetchManager.parked.map NetEvent.arrival = [2] ∧
      network.EventsDelivered := by
  have reachable : fourthOfNetwork.Reachable (fourthOfNetwork.run
      (.init 0 fourReplicas (0 : Nat)) outOfOrder) := by
    refine .run (.initial rfl) ?_
    decide +kernel
  have idle : (fourthOfNetwork.run (.init 0 fourReplicas (0 : Nat))
      outOfOrder).queue.pending = [] := by
    apply List.isEmpty_iff.mp
    decide +kernel
  refine ⟨_, reachable, idle, ?_, ?_, ?_,
    network_events_delivered collisionFree reachable idle⟩ <;> decide +kernel

end Hotstuff
