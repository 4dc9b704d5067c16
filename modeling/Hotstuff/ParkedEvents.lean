import Hotstuff.EventFlow

/-!
# What parked events wait for

An event is parked for a reason: a vote on an unknown block waits for that block,
and is followed by a request to the voter; and what waits for a block of which a
dependency is missing then waits for the dependency, and is followed by a request
to the replica that has sent the block.  Here we show for all steps of a replica
that an event is only parked together with such a request, and that a block that
is on its way in the queue stays there until the events that wait for it move.
-/

namespace Hotstuff

section Parked

variable [WireTypes] [Externals]

namespace NetworkEventQueue

/-- An event in the queue brings the block with the hash. -/
def Arriving (network : NetworkEventQueue) (hash : Hash) : Prop :=
  ∃ event ∈ network.queue.pending, ∃ p source, event.Brings p source ∧
    network.core.store.hash p = hash

/-- The source should have the block with the hash, for which the event waits:
it has voted on the block, or has sent a block that depends on it. -/
inductive Owes (network : NetworkEventQueue) (event : NetEvent)
    (source : ReplicaID) (hash : Hash) : Prop
  | voted {cert : PartialCertificate} (isVote : event.netEvent = .vote cert source)
      (hashEq : cert.hash = hash)
  | sent {bringing : NetEvent} {p : BlockPtr}
      (arrived : bringing ∈ network.received)
      (brings : bringing.Brings p source)
      (names : Names (network.core.store.hash p) hash)

variable {network after : NetworkEventQueue} {event : NetEvent}

omit [Externals] in
theorem NetEvent.Brings.unique {p q : BlockPtr} {source other : ReplicaID}
    (first : event.Brings p source) (second : event.Brings q other) :
    p = q ∧ source = other := by
  rcases first with first | first <;> rcases second with second | second <;>
    cases first.symm.trans second <;> exact ⟨rfl, rfl⟩

omit [Externals] in
theorem not_brings_of_vote {cert : PartialCertificate} {voter : ReplicaID}
    (isVote : event.netEvent = .vote cert voter) (p : BlockPtr)
    (source : ReplicaID) : ¬ event.Brings p source := by
  rintro (brings | brings) <;> cases isVote.symm.trans brings

/-! ### Handling one event -/

theorem NetEvent.valid_of_vote {cert : PartialCertificate} {voter : ReplicaID}
    (isVote : event.netEvent = .vote cert voter)
    (known : event.Known network.core) :
    network.core.config.isValidReplica voter = true := by
  rw [NetEvent.Known, isVote] at known
  exact isValidReplica_of_getInfo known

theorem hash_insertBlock (network : NetworkEventQueue) (p q : BlockPtr) :
    (network.insertBlock p).core.store.hash q = network.core.store.hash q :=
  BlockStore.property_insertBlock HotstuffBlock.getHash (fun _ _ _ _ => rfl)
    network.core.store p q

section Handling

open BlockFetchManager

omit [Externals] in
theorem fetches_addFetchRequest {manager : BlockFetchManager}
    {config : ReplicaConfig} {target : ReplicaID} (unmarked : manager.Unmarked)
    (valid : config.isValidReplica target = true) (hash : Hash)
    (events : List NetEvent) :
    (manager.addFetchRequest config hash target events).fetches =
      manager.fetches ++ [(target, hash)] := by
  have named : Call.named config (.addFetchRequest hash target events) =
      some (target, hash) := if_pos valid
  have asked : (manager.perform config
      (.addFetchRequest hash target events)).fetches = _ :=
    unmarked.fetches_perform _
  rw [named] at asked
  exact asked

omit [Externals] in
theorem fetches_deliverBlock (manager : BlockFetchManager) (hash : Hash) :
    (manager.deliverBlock hash).2.fetches = manager.fetches := by
  unfold BlockFetchManager.deliverBlock
  split <;> rfl

theorem Handled.unmarked (handled : Handled network event after)
    (unmarked : network.blockFetchManager.Unmarked) :
    after.blockFetchManager.Unmarked := by
  have calls : ∃ calls, after.blockFetchManager =
      network.blockFetchManager.performAll network.core.config calls := by
    cases handled with
    | vote => exact ⟨[], rfl⟩
    | unknownVote => exact ⟨[.addFetchRequest _ _ _], rfl⟩
    | incomplete => exact ⟨[.deliverBlock _, .addFetchRequest _ _ _], rfl⟩
    | doublyIncomplete =>
        exact ⟨[.deliverBlock _, .addFetchRequest _ _ _,
          .addFetchRequest _ _ _], rfl⟩
    | stored | proposed => exact ⟨[.deliverBlock _], rfl⟩
  obtain ⟨calls, performed⟩ := calls
  rw [performed]
  exact unmarked.performAll network.core.config calls

/-- The requests that follow an event. -/
def requestsFor (network : NetworkEventQueue) (event : NetEvent) :
    List (ReplicaID × Hash) :=
  match event.netEvent with
  | .vote cert voter =>
      if (network.core.store.getBlock cert.hash).isNone then
        [(voter, cert.hash)]
      else []
  | .proposal p source | .blockReceive p source =>
      (network.core.store.missing p).map (Prod.mk source)

omit [Externals] in
theorem requestsFor_vote {cert : PartialCertificate} {voter : ReplicaID}
    (isVote : event.netEvent = .vote cert voter) :
    network.requestsFor event =
      if (network.core.store.getBlock cert.hash).isNone then
        [(voter, cert.hash)]
      else [] := by
  rw [requestsFor, isVote]

omit [Externals] in
theorem requestsFor_brings {p : BlockPtr} {source : ReplicaID}
    (brings : event.Brings p source) :
    network.requestsFor event =
      (network.core.store.missing p).map (Prod.mk source) := by
  rcases brings with isBlock | isBlock <;> rw [requestsFor, isBlock]

omit [Externals] in
theorem unmarked_repark {p : BlockPtr} {source : ReplicaID} {missing : Hash}
    (unmarked : network.blockFetchManager.Unmarked) :
    (network.repark event p source missing).blockFetchManager.Unmarked :=
  unmarked.performAll network.core.config
    [.deliverBlock _, .addFetchRequest _ _ _]

omit [Externals] in
theorem fetches_repark {p : BlockPtr} {source : ReplicaID} {missing : Hash}
    (unmarked : network.blockFetchManager.Unmarked)
    (valid : network.core.config.isValidReplica source = true) :
    (network.repark event p source missing).blockFetchManager.fetches =
      network.blockFetchManager.fetches ++ [(source, missing)] := by
  have delivered : (network.blockFetchManager.perform network.core.config
      (.deliverBlock (network.core.store.hash p))).Unmarked :=
    unmarked.perform _
  refine (fetches_addFetchRequest delivered valid missing _).trans ?_
  exact congrArg (· ++ _) (fetches_deliverBlock _ _)

theorem Handled.fetches (handled : Handled network event after)
    (unmarked : network.blockFetchManager.Unmarked)
    (known : event.Known network.core) :
    after.blockFetchManager.fetches =
      network.blockFetchManager.fetches ++ network.requestsFor event := by
  have stores {p : BlockPtr} {source : ReplicaID}
      (brings : event.Brings p source)
      (complete : network.core.store.missing p = []) :
      (network.storeBlock p).blockFetchManager.fetches =
        network.blockFetchManager.fetches ++ network.requestsFor event := by
    rw [requestsFor_brings brings, complete, List.map_nil, List.append_nil]
    exact fetches_deliverBlock _ _
  cases handled with
  | vote isVote found =>
      rw [requestsFor_vote isVote, found]
      exact (List.append_nil _).symm
  | unknownVote isVote missing =>
      rw [requestsFor_vote isVote, missing]
      exact fetches_addFetchRequest unmarked
        (NetEvent.valid_of_vote isVote known) _ _
  | incomplete brings missing =>
      rw [requestsFor_brings brings, missing]
      exact fetches_repark unmarked (NetEvent.Brings.valid brings known)
  | doublyIncomplete brings missing =>
      have valid := NetEvent.Brings.valid brings known
      rw [requestsFor_brings brings, missing]
      refine (fetches_addFetchRequest (unmarked_repark unmarked) valid _
        []).trans ?_
      rw [fetches_repark unmarked valid, List.append_assoc]
      rfl
  | stored isBlock complete => exact stores (.inr isBlock) complete
  | proposed isProposal complete => exact stores (.inl isProposal) complete

/-- What an event asks for is stored or requested. -/
theorem requested_of_asks (collisionFree : CollisionFree)
    (tree : network.core.store.WellFormed)
    (known : event.Known network.core) {source : ReplicaID} {hash : Hash}
    (asks : event.Asks network.core.store source hash) :
    (network.core.store.getBlock hash).isSome = true ∨
      (source, hash) ∈ network.requestsFor event := by
  cases found : network.core.store.getBlock hash with
  | some p => exact .inl rfl
  | none =>
      right
      cases asks with
      | voted isVote hashEq =>
          subst hashEq
          rw [requestsFor_vote isVote, found]
          exact List.mem_singleton_self _
      | sent brings names =>
          obtain ⟨notGenesis, bound⟩ := NetEvent.Brings.known brings known
          rw [requestsFor_brings brings]
          apply List.mem_map_of_mem
          exact BlockStore.mem_missing.mpr
            ⟨tree.mem_dependencies collisionFree notGenesis bound names, found⟩

/-- An event that waits has waited before, and not for the block in hand, or it
waits for a missing block that is owed and has been requested. -/
def Waits (network : NetworkEventQueue) (event other : NetEvent)
    (hash : Hash) : Prop :=
  (other ∈ network.blockFetchManager.waiting hash ∧
    ∀ p source, event.Brings p source → network.core.store.hash p ≠ hash) ∨
  ∃ source, (source, hash) ∈ network.requestsFor event ∧
    network.core.store.getBlock hash = none ∧ network.Owes other source hash

/-- The block in hand is delivered. -/
theorem waits_deliverBlock {p : BlockPtr} {source : ReplicaID}
    (brings : event.Brings p source) {other : NetEvent} {hash : Hash}
    (waiting : other ∈ (network.blockFetchManager.deliverBlock
      (network.core.store.hash p)).2.waiting hash) :
    network.Waits event other hash := by
  rw [waiting_deliverBlock] at waiting
  split at waiting
  · cases waiting
  · rename_i different
    refine .inl ⟨waiting, ?_⟩
    intro q otherSource alsoBrings
    rw [← (NetEvent.Brings.unique brings alsoBrings).1]
    exact fun same => different same.symm

theorem waits_repark {p : BlockPtr} {source : ReplicaID}
    (tree : network.core.store.WellFormed)
    (known : event.Known network.core) (arrived : event ∈ network.received)
    (brings : event.Brings p source) {missing : Hash}
    (absent : missing ∈ network.core.store.missing p) {other : NetEvent}
    {hash : Hash} (waiting : other ∈ (network.repark event p source
      missing).blockFetchManager.waiting hash) :
    network.Waits event other hash := by
  obtain ⟨notGenesis, bound⟩ := NetEvent.Brings.known brings known
  change other ∈ BlockFetchManager.waiting (BlockFetchManager.addFetchRequest _
    network.core.config missing source _) hash at waiting
  rw [waiting_addFetchRequest (NetEvent.Brings.valid brings known)] at waiting
  split at waiting
  · rename_i same
    subst same
    obtain ⟨named, notFound⟩ := BlockStore.mem_missing.mp absent
    refine .inr ⟨source, ?_, notFound, .sent arrived brings
      (tree.names_dependency notGenesis bound named)⟩
    rw [requestsFor_brings brings]
    exact List.mem_map_of_mem absent
  · exact waits_deliverBlock brings waiting

theorem Handled.waits (handled : Handled network event after)
    (tree : network.core.store.WellFormed)
    (known : event.Known network.core) (arrived : event ∈ network.received)
    {hash : Hash} {other : NetEvent}
    (waiting : other ∈ after.blockFetchManager.waiting hash) :
    network.Waits event other hash := by
  have stores {p : BlockPtr} {source : ReplicaID}
      (brings : event.Brings p source)
      (waiting : other ∈ (network.storeBlock p).blockFetchManager.waiting hash) :
      network.Waits event other hash := by
    apply waits_deliverBlock brings
    rw [← hash_insertBlock network p]
    exact waiting
  cases handled with
  | vote isVote =>
      exact .inl ⟨waiting, fun p source brings =>
        (not_brings_of_vote isVote p source brings).elim⟩
  | @unknownVote cert voter isVote missing =>
      have notBrings : ∀ p source, event.Brings p source →
          network.core.store.hash p ≠ hash := fun p source brings =>
        (not_brings_of_vote isVote p source brings).elim
      change other ∈ BlockFetchManager.waiting (BlockFetchManager.addFetchRequest
        _ network.core.config cert.hash voter _) hash at waiting
      rw [waiting_addFetchRequest (NetEvent.valid_of_vote isVote known)]
        at waiting
      split at waiting
      · rename_i same
        subst same
        rcases List.mem_append.mp waiting with old | new
        · exact .inl ⟨old, notBrings⟩
        · rw [List.mem_singleton.mp new]
          refine .inr ⟨voter, ?_, missing, .voted isVote rfl⟩
          rw [requestsFor_vote isVote, missing]
          exact List.mem_singleton_self _
      · exact .inl ⟨waiting, notBrings⟩
  | incomplete brings missing =>
      exact waits_repark tree known arrived brings
        (missing ▸ List.mem_singleton_self _) waiting
  | @doublyIncomplete p source hash₁ further brings missing =>
      refine waits_repark tree known arrived brings
        (missing ▸ List.mem_cons_self) ?_
      change other ∈ BlockFetchManager.waiting
        (BlockFetchManager.addFetchRequest _ network.core.config further
          source []) hash at waiting
      rw [waiting_addFetchRequest (NetEvent.Brings.valid brings known),
        List.append_nil] at waiting
      split at waiting
      · rename_i same
        rw [same]
        exact waiting
      · exact waiting
  | stored isBlock => exact stores (.inr isBlock) waiting
  | proposed isProposal => exact stores (.inl isProposal) waiting

theorem Handled.pending (handled : Handled network event after)
    {other : NetEvent} (pending : other ∈ network.queue.pending) :
    other ∈ after.queue.pending := by
  have released (p : BlockPtr) :
      other ∈ (network.storeBlock p).queue.pending := by
    change other ∈ network.queue.workList ++ (network.queue.events ++ _)
    rw [← List.append_assoc]
    exact List.mem_append_left _ pending
  cases handled with
  | vote | unknownVote | incomplete | doublyIncomplete => exact pending
  | stored | proposed => exact released _

end Handling

/-! ### Steps of a replica -/

theorem Attended.grows_next (attended : network.Attended []) {action : Action}
    (enabled : network.Enabled action) :
    network.core.Grows (network.next action).core := by
  rcases attended.core_next enabled with same | ⟨event, ready, stepEq, -⟩
  · rw [same]
    exact ⟨rfl, attended.tree, .refl _⟩
  · rw [stepEq]
    exact HotstuffCore.grows_of_enabled attended.tree ready

theorem Attended.known_pending (attended : network.Attended [])
    (pending : event ∈ network.queue.pending) : event.Known network.core :=
  attended.known event (attended.arrived event (.inl (.inl pending)))

/-- A block in the queue stays there if its event does. -/
theorem Attended.arriving (attended : network.Attended []) {hash : Hash}
    (arriving : network.Arriving hash)
    (kept : ∀ event ∈ network.queue.pending, ∀ p source,
      event.Brings p source → network.core.store.hash p = hash →
        event ∈ after.queue.pending)
    (grows : network.core.Grows after.core) : after.Arriving hash := by
  obtain ⟨event, pending, p, source, brings, hashEq⟩ := arriving
  obtain ⟨-, bound⟩ :=
    NetEvent.Brings.known brings (attended.known_pending pending)
  refine ⟨event, kept event pending p source brings hashEq, p, source, brings,
    ?_⟩
  rw [(grows.longer.identity p bound).1, hashEq]

/-- An event stays in the queue until it is handled. -/
theorem Attended.pending_next (attended : network.Attended [])
    {action : Action} (enabled : network.Enabled action)
    (pending : event ∈ network.queue.pending) :
    event ∈ (network.next action).queue.pending ∨
      action = .handleEvent ∧
        ∃ rest, network.queue.workList = event :: rest := by
  have received (other : NetEvent) :
      event ∈ (network.queue.addEvents [other]).pending := by
    change event ∈ network.queue.workList ++ (network.queue.events ++ [other])
    rw [← List.append_assoc]
    exact List.mem_append_left _ pending
  cases action with
  | vote | propose | fetched => exact .inl (received _)
  | own => exact .inl pending
  | takeEvents =>
      have nothingLeft := List.isEmpty_iff.mp enabled.2.1
      rw [GenericEventQueue.pending, nothingLeft] at pending
      exact .inl (List.mem_append_left _ pending)
  | hotstuffEvent =>
      left
      simp only [NetworkEventQueue.next, NetworkEventQueue.takeHotstuffEvent]
      split <;> exact pending
  | handleEvent =>
      cases work : network.queue.workList with
      | nil =>
          left
          rw [NetworkEventQueue.next, NetworkEventQueue.handleEvent, work]
          exact pending
      | cons first rest =>
          rw [GenericEventQueue.pending, work] at pending
          rcases List.mem_cons.mp pending with rfl | later
          · exact .inr ⟨rfl, rest, rfl⟩
          · exact .inl ((attended.handleEvent work).pending later)

/-- Only the network thread parks and releases events. -/
theorem blockFetchManager_next {action : Action}
    (other : action ≠ .handleEvent) :
    (network.next action).blockFetchManager = network.blockFetchManager := by
  cases action with
  | vote | propose | fetched | takeEvents | own => rfl
  | handleEvent => exact (other rfl).elim
  | hotstuffEvent =>
      simp only [NetworkEventQueue.next, NetworkEventQueue.takeHotstuffEvent]
      split <;> rfl

/-- An event that waits after a step has waited before, for a block that is
still on its way if it was, or it waits for a missing block that is owed and has
been requested in this step. -/
theorem Attended.waits_next (attended : network.Attended [])
    (unmarked : network.blockFetchManager.Unmarked) {action : Action}
    (enabled : network.Enabled action) :
    (network.next action).blockFetchManager.Unmarked ∧
    ∃ requests,
      (network.next action).blockFetchManager.fetches =
        network.blockFetchManager.fetches ++ requests ∧
      ∀ hash, ∀ event ∈ (network.next action).blockFetchManager.waiting hash,
        (event ∈ network.blockFetchManager.waiting hash ∧
          (network.Arriving hash → (network.next action).Arriving hash)) ∨
        ∃ source, (source, hash) ∈ requests ∧
          network.core.store.getBlock hash = none ∧
          network.Owes event source hash := by
  have grows := attended.grows_next enabled
  have unparked
      (sameManager : (network.next action).blockFetchManager =
        network.blockFetchManager)
      (idle : ∀ event rest, action = .handleEvent →
        network.queue.workList ≠ event :: rest) :
      (network.next action).blockFetchManager.Unmarked ∧
      ∃ requests,
        (network.next action).blockFetchManager.fetches =
          network.blockFetchManager.fetches ++ requests ∧
        ∀ hash, ∀ event ∈ (network.next action).blockFetchManager.waiting hash,
          (event ∈ network.blockFetchManager.waiting hash ∧
            (network.Arriving hash → (network.next action).Arriving hash)) ∨
          ∃ source, (source, hash) ∈ requests ∧
            network.core.store.getBlock hash = none ∧
            network.Owes event source hash := by
    rw [sameManager]
    refine ⟨unmarked, [], (List.append_nil _).symm, ?_⟩
    intro hash event waiting
    refine .inl ⟨waiting, fun arriving => ?_⟩
    refine attended.arriving arriving (fun event pending _ _ _ _ => ?_) grows
    rcases attended.pending_next enabled pending with kept | ⟨handles, rest, work⟩
    · exact kept
    · exact (idle event rest handles work).elim
  by_cases handles : action = .handleEvent
  swap
  · exact unparked (blockFetchManager_next handles)
      fun _ _ same => (handles same).elim
  subst handles
  cases work : network.queue.workList with
  | nil =>
      apply unparked
      · rw [NetworkEventQueue.next, NetworkEventQueue.handleEvent, work]
      · intro event rest _
        rw [work]
        exact (List.cons_ne_nil _ _).symm
  | cons event rest =>
      have handled := attended.handleEvent work
      have taken := attended.takeFirst work
      have arrived : event ∈ network.received :=
        taken.arrived event (.inr (List.mem_singleton_self _))
      have known := attended.known event arrived
      refine ⟨handled.unmarked unmarked, _, handled.fetches unmarked known, ?_⟩
      intro hash other waiting
      rcases handled.waits taken.tree known arrived waiting with
        ⟨old, otherBlock⟩ | ⟨source, requested, absent, owes⟩
      · refine .inl ⟨old, fun arriving => ?_⟩
        refine attended.arriving arriving ?_ grows
        intro bringing pending p source brings hashEq
        rw [GenericEventQueue.pending, work] at pending
        rcases List.mem_cons.mp pending with rfl | later
        · exact (otherBlock p source brings hashEq).elim
        · exact handled.pending later
      · refine .inr ⟨source, requested, absent, ?_⟩
        cases owes with
        | voted isVote hashEq => exact .voted isVote hashEq
        | sent arrived brings names => exact .sent arrived brings names

theorem NetEvent.Asks.owes {source : ReplicaID} {hash : Hash}
    (asks : event.Asks network.core.store source hash)
    (arrived : event ∈ network.received) : network.Owes event source hash := by
  cases asks with
  | voted isVote hashEq => exact .voted isVote hashEq
  | sent brings names => exact .sent arrived brings names

/-- What arrives is put into the queue. -/
theorem pending_arrivals {action : Action}
    (arrives : event ∈ network.arrivals action) :
    event ∈ (network.next action).queue.pending := by
  cases action with
  | vote | propose | fetched =>
      exact List.mem_append_right _ (List.mem_append_right _ arrives)
  | _ => cases arrives

omit [Externals] in
theorem arrival_arrivals {action : Action}
    (arrives : event ∈ network.arrivals action) :
    event.arrival = network.received.length := by
  cases action with
  | vote | propose | fetched => rw [List.mem_singleton.mp arrives]
  | _ => cases arrives

/-- What an event asks for after a step: it is still in the queue, or has been
handled before, or what it asks for is stored or requested in this step. -/
theorem Attended.asked_next (collisionFree : CollisionFree)
    (attended : network.Attended [])
    (unmarked : network.blockFetchManager.Unmarked) {action : Action}
    (enabled : network.Enabled action)
    {requests : List (ReplicaID × Hash)}
    (fetchesEq : (network.next action).blockFetchManager.fetches =
      network.blockFetchManager.fetches ++ requests)
    (arrived : event ∈ (network.next action).received) {source : ReplicaID}
    {hash : Hash} (asks : event.Asks (network.next action).core.store source hash) :
    event ∈ (network.next action).queue.pending ∨
      ((network.next action).core.store.getBlock hash).isSome = true ∨
      (source, hash) ∈ requests ∨
      event ∈ network.received ∧ event ∉ network.queue.pending ∧
        event.Asks network.core.store source hash := by
  have grows := attended.grows_next enabled
  rw [attended.received_next] at arrived
  rcases List.mem_append.mp arrived with old | new
  swap
  · exact .inl (pending_arrivals new)
  rw [NetEvent.Known.asks_iff (attended.known event old) grows] at asks
  by_cases pending : event ∈ network.queue.pending
  swap
  · exact .inr (.inr (.inr ⟨old, pending, asks⟩))
  rcases attended.pending_next enabled pending with
    kept | ⟨rfl, rest, work⟩
  · exact .inl kept
  · have known := attended.known event old
    have requestsEq := List.append_cancel_left
      (((attended.handleEvent work).fetches unmarked known).symm.trans fetchesEq)
    rw [← requestsEq]
    rcases requested_of_asks collisionFree attended.tree known asks with
      found | requested
    · exact .inr (.inl (grows.stores found))
    · exact .inr (.inr (.inl requested))

/-- The object of a block that arrives. -/
theorem block_receiveBlock (network : NetworkEventQueue)
    (wireBlock : HotstuffBlockWire) (source : ReplicaID) :
    ((network.receiveBlock wireBlock source).core.block
        network.core.store.heap.length).wireBlock.header =
      wireBlock.header ∧
    (network.receiveBlock wireBlock source).core.store.hash
        network.core.store.heap.length = hashHeader wireBlock.header := by
  have same : ((network.receiveBlock wireBlock source).core.block
      network.core.store.heap.length).links =
        (HotstuffBlock.new wireBlock source).links := by
    change ((network.core.store.alloc _).1.block _).links = _
    rw [BlockStore.block_alloc, if_pos rfl]
    exact HotstuffBlock.property_validateHotstuff HotstuffBlock.links
      (fun _ _ => rfl) _ _
  exact ⟨congrArg HotstuffBlock.Links.header same,
    congrArg HotstuffBlock.Links.hash same⟩

theorem brings_fetched (network : NetworkEventQueue)
    (wireBlock : HotstuffBlockWire) (sender : ReplicaID) :
    ∃ event ∈ network.arrivals (.fetched wireBlock sender),
      ∃ p, event.Brings p sender ∧
        (network.next (.fetched wireBlock sender)).core.store.hash p =
          hashHeader wireBlock.header :=
  ⟨_, List.mem_singleton_self _, _, .inr rfl,
    (network.block_receiveBlock wireBlock sender).2⟩

end NetworkEventQueue

end Parked

end Hotstuff
