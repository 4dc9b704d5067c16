import Hotstuff.Settling

/-!
# New messages are processed

Replicas that settle without the others may have old events that wait for blocks
which none of them can get.  But what has arrived in the course of a settlement
comes from one of them, which has all the blocks that its messages depend on.  So
nothing new is left behind: at the end the new blocks are stored and the new
votes and proposals have reached the core.

The number of messages that have not reached the core does therefore not grow,
and it gets smaller when an old message reaches the core after all.
-/

namespace Hotstuff

section Fresh

variable [WireTypes] [Externals]

/-- Who has sent the event. -/
def NetEvent.source (event : NetEvent) : ReplicaID :=
  match event.netEvent with
  | .vote _ voter => voter
  | .proposal _ source | .blockReceive _ source => source

def Message.sender : Message → ReplicaID
  | .vote _ voter => voter
  | .propose _ proposer => proposer

omit [Externals] in
theorem Effect.sender_toPeer {selfId peer : ReplicaID} {effect : Effect}
    {message : Message} (toPeer : effect.toPeer selfId peer = some message) :
    message.sender = selfId := by
  cases effect with
  | doVote p cert target =>
      simp only [Effect.toPeer] at toPeer
      split at toPeer <;> cases toPeer
      rfl
  | broadcastProposal =>
      cases toPeer
      rfl
  | _ => cases toPeer

/-! ### Where new events wait -/

namespace NetworkEventQueue

variable {network after : NetworkEventQueue} {event : NetEvent}

omit [Externals] in
theorem source_toAction {message : Message}
    (arrives : event ∈ network.arrivals message.toAction) :
    event.source = message.sender := by
  cases message <;> rw [List.mem_singleton.mp arrives] <;> rfl

/-- Events from the given number on wait for blocks that are missing. -/
def WaitsForMissing (network : NetworkEventQueue) (since : Nat) : Prop :=
  ∀ hash, ∀ event ∈ network.blockFetchManager.waiting hash,
    since ≤ event.arrival → network.core.store.getBlock hash = none

/-- What an event brings is the only block that it stores. -/
theorem Handled.getBlock_eq (handled : Handled network event after)
    {hash : Hash} (other : ∀ p source, event.Brings p source →
      network.core.store.hash p ≠ hash) :
    after.core.store.getBlock hash = network.core.store.getBlock hash := by
  have stores {p : BlockPtr} {source : ReplicaID}
      (brings : event.Brings p source) :
      (network.insertBlock p).core.store.getBlock hash =
        network.core.store.getBlock hash := by
    change ((network.core.store.insertBlock p).1).getBlock hash = _
    rcases BlockStore.insertBlock_cases network.core.store p with
      ⟨parent, justify, -, -, result, -⟩ | ⟨-, result, -⟩
    · rw [result, BlockStore.getBlock_addLinked,
        if_neg fun same => other p source brings same.1.symm]
    · rw [result]
  cases handled with
  | vote | unknownVote | incomplete | doublyIncomplete => rfl
  | stored isBlock => exact stores (.inr isBlock)
  | proposed isProposal => exact stores (.inl isProposal)

/-- A request leaves the core as it is. -/
theorem Handled.core_of_requests (handled : Handled network event after)
    {request : ReplicaID × Hash}
    (requested : request ∈ network.requestsFor event) :
    after.core = network.core := by
  have stores {p : BlockPtr} {source : ReplicaID}
      (brings : event.Brings p source)
      (complete : network.core.store.missing p = []) :
      (network.insertBlock p).core = network.core := by
    rw [requestsFor_brings brings, complete] at requested
    cases requested
  cases handled with
  | vote | unknownVote | incomplete | doublyIncomplete => rfl
  | stored isBlock complete => exact stores (.inr isBlock) complete
  | proposed isProposal complete => exact stores (.inl isProposal) complete

theorem Attended.getBlock_next (attended : network.Attended [])
    {action : Action} (enabled : network.Enabled action)
    (other : action ≠ .handleEvent)
    (unminted : ∀ event, action = .own event →
      network.core.newProposals event = []) (hash : Hash) :
    (network.next action).core.store.getBlock hash =
      network.core.store.getBlock hash := by
  have steps {event : HotstuffCore.Event}
      (notInserted : ∀ p, event ≠ .insertBlock p)
      (unminted : network.core.newProposals event = []) :
      (network.core.step event).store.getBlock hash =
        network.core.store.getBlock hash := by
    apply HotstuffCore.getBlock_step attended.tree notInserted
    rintro body (rfl | rfl) <;> cases unminted
  cases action with
  | handleEvent => exact (other rfl).elim
  | vote | propose | fetched | takeEvents => rfl
  | hotstuffEvent =>
      change network.takeHotstuffEvent.core.store.getBlock hash = _
      unfold NetworkEventQueue.takeHotstuffEvent
      cases found : network.hotstuffEventQueue[network.taken]? with
      | none => rfl
      | some entry =>
          obtain ⟨source, delivered⟩ := entry
          cases delivered with
          | vote | proposal => exact steps (fun p isInsert => by cases isInsert) rfl
  | own event =>
      refine steps ?_ (unminted event rfl)
      rintro p rfl
      cases enabled.2.1

theorem Attended.waitsForMissing_next (attended : network.Attended [])
    {since : Nat} (fresh : network.WaitsForMissing since) {action : Action}
    (enabled : network.Enabled action)
    (unminted : ∀ event, action = .own event →
      network.core.newProposals event = []) :
    (network.next action).WaitsForMissing since := by
  by_cases handles : action = .handleEvent
  · subst handles
    obtain ⟨event, rest, work⟩ := List.exists_cons_of_ne_nil
      (mt List.isEmpty_iff.mpr (by rw [enabled.2]; decide))
    have taken := attended.takeFirst work
    have arrived := taken.arrived event (.inr (List.mem_singleton_self _))
    have known := taken.known event arrived
    have handled := attended.handleEvent work
    intro hash other waiting new
    rcases handled.waits taken.tree known arrived waiting with
      ⟨before, different⟩ | ⟨source, requested, missing, -⟩
    · exact (handled.getBlock_eq different).trans (fresh hash other before new)
    · have same : (network.next .handleEvent).core = network.core :=
        handled.core_of_requests requested
      rw [same]
      exact missing
  · intro hash other waiting new
    rw [blockFetchManager_next handles] at waiting
    rw [attended.getBlock_next enabled handles unminted]
    exact fresh hash other waiting new

/-! ### What has reached the core -/

/-- Events arrive and reach the core in order. -/
structure Precedes (network after : NetworkEventQueue) : Prop where
  received : network.received <+: after.received
  queue : network.hotstuffEventQueue <+: after.hotstuffEventQueue
  taken : network.taken ≤ after.taken

omit [Externals] in
theorem Precedes.refl (network : NetworkEventQueue) :
    network.Precedes network :=
  ⟨List.prefix_rfl, List.prefix_rfl, Nat.le_refl _⟩

omit [Externals] in
theorem Precedes.trans {middle : NetworkEventQueue}
    (first : network.Precedes middle) (second : middle.Precedes after) :
    network.Precedes after :=
  ⟨first.received.trans second.received, first.queue.trans second.queue,
    first.taken.trans second.taken⟩

theorem Handled.queue_grows (handled : Handled network event after) :
    network.hotstuffEventQueue <+: after.hotstuffEventQueue ∧
      network.taken = after.taken := by
  cases handled with
  | vote | proposed => exact ⟨List.prefix_append _ _, rfl⟩
  | unknownVote | incomplete | doublyIncomplete | stored =>
      exact ⟨List.prefix_rfl, rfl⟩

theorem Attended.precedes_next (attended : network.Attended [])
    (action : Action) : network.Precedes (network.next action) := by
  have received : network.received <+: (network.next action).received := by
    rw [attended.received_next]
    exact List.prefix_append _ _
  cases action with
  | vote | propose | fetched | takeEvents | own =>
      exact ⟨received, List.prefix_rfl, Nat.le_refl _⟩
  | handleEvent =>
      cases work : network.queue.workList with
      | nil =>
          rw [NetworkEventQueue.next, NetworkEventQueue.handleEvent, work]
          exact .refl network
      | cons event rest =>
          obtain ⟨queue, taken⟩ := (attended.handleEvent work).queue_grows
          exact ⟨received, queue, taken.le⟩
  | hotstuffEvent =>
      change network.Precedes network.takeHotstuffEvent
      unfold NetworkEventQueue.takeHotstuffEvent
      split
      · exact .refl network
      · exact ⟨List.prefix_rfl, List.prefix_rfl, Nat.le_succ _⟩

/-- The events that have reached the core. -/
def processed (network : NetworkEventQueue) :
    List (NetEvent × HotstuffEvent) :=
  network.hotstuffEventQueue.take network.taken

/-- The numbers of the votes and proposals that have not reached the core. -/
def unprocessed (network : NetworkEventQueue) : Finset Nat :=
  ((network.received.filter NetEvent.isMessage).map NetEvent.arrival).toFinset \
    (network.processed.map fun entry => entry.1.arrival).toFinset

/-- The events that have reached the core since then have arrived since then. -/
def TakesNew (start network : NetworkEventQueue) : Prop :=
  ∀ entry ∈ network.processed.drop start.taken,
    start.received.length ≤ entry.1.arrival

omit [Externals] in
theorem Precedes.processed (precedes : network.Precedes after) :
    network.processed <+: after.processed := by
  obtain ⟨new, queueEq⟩ := precedes.queue
  have longer : network.processed <+:
      after.hotstuffEventQueue.take network.taken := by
    rw [← queueEq, List.take_append]
    exact List.prefix_append _ _
  exact longer.trans (List.take_prefix_take_left precedes.taken)

/-- Nothing reaches the core twice. -/
theorem Attended.nodup_processed {inHand : List NetEvent}
    (attended : network.Attended inHand) :
    (network.processed.map fun entry => entry.1.arrival).Nodup := by
  have distinct : network.forwardedEvents.Nodup :=
    Multiset.coe_nodup.mp
      (Multiset.nodup_of_le (Multiset.le_add_left _ _) attended.nodup_held)
  have injective : ∀ first ∈ network.forwardedEvents,
      ∀ second ∈ network.forwardedEvents,
        first.arrival = second.arrival → first = second := by
    intro first inFirst second inSecond same
    exact List.inj_on_of_nodup_map attended.nodup_numbers
      (attended.arrived first (.inl (.inr (.inr inFirst))))
      (attended.arrived second (.inl (.inr (.inr inSecond)))) same
  have numbers : (network.forwardedEvents.map NetEvent.arrival).Nodup :=
    distinct.map_on injective
  have part : (network.processed.map fun entry => entry.1.arrival).Sublist
      (network.forwardedEvents.map NetEvent.arrival) := by
    rw [forwardedEvents, List.map_map]
    exact (List.take_sublist _ _).map _
  exact part.nodup numbers

omit [Externals] in
theorem mem_unprocessed {number : Nat} :
    number ∈ network.unprocessed ↔
      (∃ event ∈ network.received, event.isMessage = true ∧
        event.arrival = number) ∧
      ∀ entry ∈ network.processed, entry.1.arrival ≠ number := by
  simp [unprocessed, and_assoc]

/-- The events are numbered in the order of their arrival. -/
theorem Precedes.old_or_new (precedes : network.Precedes after)
    (attended : after.Attended []) (arrived : event ∈ after.received) :
    event ∈ network.received ∨ network.received.length ≤ event.arrival := by
  obtain ⟨new, receivedEq⟩ := precedes.received
  rw [← receivedEq] at arrived
  rcases List.mem_append.mp arrived with old | isNew
  · exact .inl old
  · obtain ⟨i, bound, rfl⟩ := List.getElem_of_mem isNew
    have numbered := congrArg (·[network.received.length + i]?)
      attended.numbered
    have inside : network.received.length + i <
        (network.received ++ new).length := by
      rw [List.length_append]
      omega
    simp only [← receivedEq, List.map_append, List.getElem?_range inside]
      at numbered
    rw [List.getElem?_append_right (by simp)] at numbered
    simp [List.getElem?_eq_getElem bound] at numbered
    omega

/-- What is unprocessed was so before, when all that is new is processed. -/
theorem Precedes.unprocessed_subset (precedes : network.Precedes after)
    (attended : after.Attended [])
    (done : ∀ event ∈ after.received, network.received.length ≤ event.arrival →
      event.isMessage = true → ∃ entry ∈ after.processed, entry.1 = event) :
    after.unprocessed ⊆ network.unprocessed := by
  intro number unprocessed
  obtain ⟨⟨event, arrived, isMessage, rfl⟩, not⟩ :=
    mem_unprocessed.mp unprocessed
  refine mem_unprocessed.mpr ⟨⟨event, ?_, isMessage, rfl⟩,
    fun entry inside => not entry (precedes.processed.subset inside)⟩
  rcases precedes.old_or_new attended arrived with old | new
  · exact old
  · obtain ⟨entry, inside, rfl⟩ := done event arrived new isMessage
    exact (not entry inside rfl).elim

omit [Externals] in
theorem HotstuffEvent.Delivers.isMessage {delivered : HotstuffEvent}
    {store : BlockStore} (delivers : delivered.Delivers store event) :
    event.isMessage = true := by
  cases delivered <;> rw [NetEvent.isMessage, delivers.1]

/-- When an old event has reached the core there is less to do. -/
theorem Precedes.unprocessed_ne (precedes : network.Precedes after)
    (attended : after.Attended []) (old : ¬ network.TakesNew after) :
    after.unprocessed ≠ network.unprocessed := by
  obtain ⟨entry, taken, early⟩ : ∃ entry ∈ after.processed.drop network.taken,
      entry.1.arrival < network.received.length := by
    simpa [TakesNew] using old
  have inside := List.mem_of_mem_drop taken
  have queued := List.mem_of_mem_take inside
  have arrived := attended.arrived entry.1
    (.inl (.inr (.inr (List.mem_map_of_mem queued))))
  have before : entry.1.arrival ∈ network.unprocessed := by
    refine mem_unprocessed.mpr ⟨⟨entry.1, ?_,
      HotstuffEvent.Delivers.isMessage (attended.delivers entry queued), rfl⟩, ?_⟩
    · rcases precedes.old_or_new attended arrived with isOld | isNew
      · exact isOld
      · omega
    · intro other processed same
      have earlier : other ∈ after.processed.take network.taken := by
        have short : network.processed.length ≤ network.taken :=
          List.length_take_le _ _
        obtain ⟨rest, split⟩ := precedes.processed
        rw [← split, List.take_append, List.take_of_length_le short]
        exact List.mem_append_left _ processed
      have distinct := attended.nodup_processed
      rw [← List.take_append_drop network.taken after.processed,
        List.map_append] at distinct
      exact (List.nodup_append.mp distinct).2.2 _
        (List.mem_map_of_mem earlier) _ (List.mem_map_of_mem taken) same
  intro same
  rw [← same] at before
  exact (mem_unprocessed.mp before).2 entry inside rfl

end NetworkEventQueue

/-! ### Settlements -/

namespace Cluster

variable {deployment : Deployment} {cluster last : Cluster}
  {replicas : Finset ReplicaID} {since : ReplicaID → Nat}

/-- Since a moment the replicas have got events from each other only, and those
wait for missing blocks only. -/
structure Fresh (replicas : Finset ReplicaID) (since : ReplicaID → Nat)
    (cluster : Cluster) : Prop where
  sources : ∀ rid ∈ replicas, ∀ event ∈ (cluster rid).network.received,
    since rid ≤ event.arrival → event.source ∈ replicas ∧
      (event.isMessage = true → event.source ≠ rid)
  waiting : ∀ rid ∈ replicas, (cluster rid).network.WaitsForMissing (since rid)

/-- The number of events that have arrived. -/
def arrived (cluster : Cluster) (rid : ReplicaID) : Nat :=
  (cluster rid).network.received.length

theorem Sound.fresh (sound : cluster.Sound deployment)
    (replicas : Finset ReplicaID) : Fresh replicas cluster.arrived cluster := by
  have none (rid : ReplicaID) {event : NetEvent}
      (arrived : event ∈ (cluster rid).network.received) :
      ¬ cluster.arrived rid ≤ event.arrival :=
    Nat.not_le.mpr ((sound.processes rid).attended.arrival_lt arrived)
  constructor
  · intro rid _ event arrived new
    exact (none rid arrived new).elim
  · intro rid _ hash event waiting new
    have arrived := (sound.processes rid).attended.arrived event
      (.inl (.inr (.inl (BlockFetchManager.mem_parked_of_waiting waiting))))
    exact (none rid arrived new).elim

/-- What arrives in a step of the group comes from the group. -/
theorem source_arrivals (sound : cluster.Sound deployment) {label : Label}
    (allowed : deployment.Allowed cluster label)
    (settling : cluster.Settling replicas label) {rid : ReplicaID}
    {action : NetworkEventQueue.Action}
    (cause : Cause deployment cluster rid label action) {event : NetEvent}
    (arrives : event ∈ (cluster rid).network.arrivals action) :
    event.source ∈ replicas ∧
      (event.isMessage = true → event.source ≠ rid) := by
  cases cause with
  | thread isLocal =>
      cases action with
      | vote | propose | fetched => cases isLocal
      | _ => cases arrives
  | own => cases arrives
  | injected => cases settling.1
  | @sent sender clientAction message outgoing =>
      have submitted := (sound.processes sender).outgoing allowed.2.1 outgoing
      rw [(sound.processes sender).submitted rid] at submitted
      obtain ⟨effect, -, toPeer⟩ := List.mem_filterMap.mp submitted
      rw [NetworkEventQueue.source_toAction arrives, Effect.sender_toPeer toPeer]
      exact ⟨settling.2.1, fun _ => allowed.1.2.2.symm⟩
  | @fetched peer wireBlock first =>
      rw [List.mem_singleton.mp arrives]
      refine ⟨settling.2.2, ?_⟩
      intro isMessage
      cases isMessage

section Steps

variable (collisionFree : CollisionFree)
  (configured : deployment.WellConfigured)

include collisionFree configured

theorem Fresh.next (fresh : Fresh replicas since cluster)
    (sound : cluster.Sound deployment) {label : Label}
    (allowed : deployment.Allowed cluster label)
    (settling : cluster.Settling replicas label) :
    Fresh replicas since (cluster.next label) := by
  constructor
  · intro rid member event arrived new
    rcases network_next collisionFree configured sound allowed rid with
      same | ⟨action, cause, enabled, result⟩
    · rw [same] at arrived
      exact fresh.sources rid member event arrived new
    · rw [result, (sound.processes rid).attended.received_next] at arrived
      rcases List.mem_append.mp arrived with old | arrives
      · exact fresh.sources rid member event old new
      · exact source_arrivals sound allowed settling cause arrives
  · intro rid member
    rcases network_next collisionFree configured sound allowed rid with
      same | ⟨action, cause, enabled, result⟩
    · rw [same]
      exact fresh.waiting rid member
    · rw [result]
      refine (sound.processes rid).attended.waitsForMissing_next
        (fresh.waiting rid member) enabled ?_
      intro event isOwn
      exact sound.unminted (cause.mem_selfClient settling.1 isOwn) _

end Steps

/-! ### At rest -/

section Rest

variable (collisionFree : CollisionFree)
  (configured : deployment.WellConfigured)
  (inside : replicas ⊆ deployment.config.ids)
  (honest : ∀ rid ∈ replicas, rid ∉ deployment.faulty)
  (fresh : Fresh replicas since cluster) (sound : cluster.Sound deployment)
  (serviced : cluster.Serviced deployment)
  (atRest : deployment.RestAmong replicas cluster) {rid : ReplicaID}
  (member : rid ∈ replicas) {event : NetEvent}
  (arrived : event ∈ (cluster rid).network.received)
  (new : since rid ≤ event.arrival)

include collisionFree configured inside honest fresh sound serviced atRest member
  arrived new

/-- What a new event asks for has arrived with a later one, or is stored. -/
theorem Fresh.asked_at_rest {source : ReplicaID} {hash : Hash}
    (asks : event.Asks (cluster.cores rid).store source hash)
    (brought : ∀ later ∈ (cluster rid).network.received,
      since rid ≤ later.arrival → ∀ p, later.Brings p source →
        (cluster.cores rid).store.hash p = hash →
          (cluster.cores rid).Stores hash) :
    (cluster.cores rid).Stores hash := by
  obtain ⟨abstract, tracks⟩ :=
    tracks_of_reachable collisionFree configured sound.cores rid
  obtain ⟨empty, -⟩ := queue_at_rest inside sound atRest member tracks.alive
  have isSource : event.source = source := by
    cases asks with
    | voted isVote => rw [NetEvent.source, isVote]
    | sent brings =>
        rcases brings with isBlock | isBlock <;> rw [NetEvent.source, isBlock]
  have sourceMember : source ∈ replicas :=
    isSource ▸ (fresh.sources rid member event arrived new).1
  have correct : deployment.Correct event := by
    intro cert voter isVote
    apply honest
    have isVoter : event.source = voter := by rw [NetEvent.source, isVote]
    rw [← isVoter, isSource]
    exact sourceMember
  rcases (serviced.processes rid).pursued event arrived correct source hash asks
    with pending | stores | requested | inHand | ⟨later, after, later', p, brings,
      hashEq⟩
  · rw [empty] at pending
    cases pending
  · exact stores
  · exact (worker_at_rest inside sound atRest member sourceMember hash
      requested).elim
  · cases inHand
  · exact brought later after (new.trans later'.le) p brings hashEq

omit configured inside honest serviced atRest arrived in
/-- No new event waits when all that it asks for is stored. -/
theorem Fresh.not_parked
    (stored : ∀ source hash, event.Asks (cluster.cores rid).store source hash →
      (cluster.cores rid).Stores hash) :
    event ∉ (cluster rid).network.blockFetchManager.parked := by
  intro parked
  have attended := (sound.processes rid).attended
  obtain ⟨hash, -, waiting⟩ :=
    BlockFetchManager.exists_waiting_of_mem_parked parked
  obtain ⟨source, asked, asks, dependsOn⟩ := attended.depends hash event waiting
  have stores : (cluster.cores rid).Stores hash :=
    attended.tree.stored_of_dependsOn collisionFree dependsOn
      (stored source asked asks)
  have missing := fresh.waiting rid member hash event waiting new
  exact Option.isSome_iff_ne_none.mp stores missing

/-- New blocks are stored. -/
theorem Fresh.stores_at_rest {p : BlockPtr} {source : ReplicaID}
    (brings : event.Brings p source) :
    (cluster.cores rid).Stores ((cluster.cores rid).store.hash p) := by
  have attended := (sound.processes rid).attended
  obtain ⟨abstract, tracks⟩ :=
    tracks_of_reachable collisionFree configured sound.cores rid
  obtain ⟨empty, -⟩ := queue_at_rest inside sound atRest member tracks.alive
  induction level : (headerForest collisionFree).height
      ((cluster.cores rid).store.hash p) using Nat.strongRecOn
      generalizing event p source with
  | ind bound ih =>
      obtain ⟨wireBlock, proposed, hashEq⟩ :=
        sound.hash_proposed collisionFree configured arrived brings
      have stored (asker : ReplicaID) (hash : Hash)
          (asks : event.Asks (cluster.cores rid).store asker hash) :
          (cluster.cores rid).Stores hash := by
        refine fresh.asked_at_rest collisionFree configured inside honest sound
          serviced atRest member arrived new asks ?_
        intro later arrivedLater newLater q bringsLater sameHash
        have lower : (headerForest collisionFree).height hash < bound := by
          cases asks with
          | voted isVote =>
              exact (NetworkEventQueue.not_brings_of_vote isVote p source
                brings).elim
          | sent bringsNow names =>
              obtain ⟨rfl, -⟩ :=
                NetworkEventQueue.NetEvent.Brings.unique brings bringsNow
              rw [← level, hashEq]
              rw [hashEq] at names
              exact deployment.names_lower collisionFree configured sound.cores
                proposed names
        have stores := ih _ lower arrivedLater newLater bringsLater
          (congrArg _ sameHash)
        rwa [sameHash] at stores
      rcases attended.present arrived with
        (pending | parked | forwarded) | inHand | ⟨q, asker, isBlock, stores⟩
      · rw [empty] at pending
        cases pending
      · exact (fresh.not_parked collisionFree sound member new stored
          parked).elim
      · obtain ⟨⟨first, delivered⟩, queued, rfl⟩ := List.mem_map.mp forwarded
        have delivers := attended.delivers _ queued
        cases delivered with
        | vote cert q voter =>
            exact (NetworkEventQueue.not_brings_of_vote delivers.1 p source
              brings).elim
        | proposal q proposer =>
            obtain ⟨rfl, -⟩ := NetworkEventQueue.NetEvent.Brings.unique brings
              (.inl delivers.1)
            exact attended.tree.linkedCached p delivers.2
      · cases inHand
      · obtain ⟨rfl, -⟩ :=
          NetworkEventQueue.NetEvent.Brings.unique brings (.inr isBlock)
        exact stores

/-- New votes and proposals have reached the core. -/
theorem Fresh.processed_at_rest (isMessage : event.isMessage = true) :
    ∃ entry ∈ (cluster rid).network.hotstuffEventQueue.take
      (cluster rid).network.taken, entry.1 = event := by
  have attended := (sound.processes rid).attended
  obtain ⟨abstract, tracks⟩ :=
    tracks_of_reachable collisionFree configured sound.cores rid
  obtain ⟨empty, taken, -⟩ :=
    queue_at_rest inside sound atRest member tracks.alive
  rcases attended.kept event arrived isMessage with
    (pending | parked | forwarded) | inHand
  · rw [empty] at pending
    cases pending
  · refine (fresh.not_parked collisionFree sound member new ?_ parked).elim
    intro source hash asks
    refine fresh.asked_at_rest collisionFree configured inside honest sound
      serviced atRest member arrived new asks ?_
    intro later arrivedLater newLater p brings hashEq
    rw [← hashEq]
    exact fresh.stores_at_rest collisionFree configured inside honest sound
      serviced atRest member arrivedLater newLater brings
  · obtain ⟨entry, queued, isEvent⟩ := List.mem_map.mp forwarded
    refine ⟨entry, ?_, isEvent⟩
    rw [List.take_of_length_le taken]
    exact queued
  · cases inHand

end Rest

/-- The number of messages that have not reached the core. -/
def backlog (replicas : Finset ReplicaID) (cluster : Cluster) : Nat :=
  ∑ rid ∈ replicas, (cluster rid).network.unprocessed.card

end Cluster

namespace Deployment

variable {deployment : Deployment} {cluster last : Cluster}
  {replicas : Finset ReplicaID} (collisionFree : CollisionFree)
  (configured : deployment.WellConfigured)
  (reachable : (deployment.cluster.restrict Cluster.Keeping).Reachable cluster)

include collisionFree configured reachable

theorem precedes_of_settling
    (leads : (deployment.cluster.restrict (Cluster.Settling replicas)).Leads
      cluster last) (rid : ReplicaID) :
    (cluster rid).network.Precedes (last rid).network := by
  refine settling_invariant leads (fun last =>
    (cluster rid).network.Precedes (last rid).network) (.refl _) ?_
  intro last label leads precedes enabled _
  have sound := Cluster.sound_of_reachable collisionFree configured
    (reachable_of_settling reachable leads).of_restrict
  rcases Cluster.network_next collisionFree configured sound enabled.2 rid with
    same | ⟨action, -, -, result⟩
  · rw [same]
    exact precedes
  · rw [result]
    exact precedes.trans ((sound.processes rid).attended.precedes_next action)

theorem fresh_of_settling
    (leads : (deployment.cluster.restrict (Cluster.Settling replicas)).Leads
      cluster last) : Cluster.Fresh replicas cluster.arrived last := by
  have sound := Cluster.sound_of_reachable collisionFree configured
    reachable.of_restrict
  refine settling_invariant leads (Cluster.Fresh replicas cluster.arrived)
    (sound.fresh replicas) ?_
  intro last label leads fresh enabled settling
  exact fresh.next collisionFree configured
    (Cluster.sound_of_reachable collisionFree configured
      (reachable_of_settling reachable leads).of_restrict)
    enabled.2 settling

/-- In a settlement the backlog does not grow, and it gets smaller if an old
message reaches a core. -/
theorem backlog_of_settlement (inside : replicas ⊆ deployment.config.ids)
    (honest : ∀ rid ∈ replicas, rid ∉ deployment.faulty)
    (settlement : deployment.Settlement replicas cluster last) :
    last.backlog replicas < cluster.backlog replicas ∨
      last.backlog replicas ≤ cluster.backlog replicas ∧
        ∀ rid ∈ replicas,
          (cluster rid).network.TakesNew (last rid).network := by
  obtain ⟨leads, atRest⟩ := settlement
  have precedes := precedes_of_settling collisionFree configured reachable leads
  have fresh := fresh_of_settling collisionFree configured reachable leads
  have reached := reachable_of_settling reachable leads
  have sound := Cluster.sound_of_reachable collisionFree configured
    reached.of_restrict
  have serviced := Cluster.serviced_of_reachable collisionFree configured reached
  have subset (rid : ReplicaID) (member : rid ∈ replicas) :
      (last rid).network.unprocessed ⊆ (cluster rid).network.unprocessed := by
    refine (precedes rid).unprocessed_subset (sound.processes rid).attended ?_
    intro event arrived new isMessage
    exact fresh.processed_at_rest collisionFree configured inside honest sound
      serviced atRest member arrived new isMessage
  have fewer (rid : ReplicaID) (member : rid ∈ replicas) :=
    Finset.card_le_card (subset rid member)
  by_cases takesNew : ∀ rid ∈ replicas,
      (cluster rid).network.TakesNew (last rid).network
  · exact .inr ⟨Finset.sum_le_sum fewer, takesNew⟩
  · left
    simp only [not_forall] at takesNew
    obtain ⟨rid, member, old⟩ := takesNew
    have changed := (precedes rid).unprocessed_ne (sound.processes rid).attended
      old
    exact Finset.sum_lt_sum fewer ⟨rid, member,
      Finset.card_lt_card ((subset rid member).ssubset_of_ne changed)⟩

end Deployment

end Fresh

end Hotstuff
