import Hotstuff.FetchRequests

/-!
# The places of network events

An event that has arrived is in one of five places: in the hands of the network
thread, in its queue, in a request, in the hotstuff queue, or used up.  Each
operation of the network thread moves events from one place to another, and an
event is only parked under a hash that its block depends on.

What the hotstuff queue hands to the core passes the checks that the core's own
model asks of its events, so a replica with its queues runs like the core alone.
-/

namespace Hotstuff

section Accounts

variable [WireTypes] [Externals]

/-! ### The places of an event -/

namespace NetworkEventQueue

/-- The network events that were forwarded. -/
def forwardedEvents (network : NetworkEventQueue) : List NetEvent :=
  network.hotstuffEventQueue.map Prod.fst

/-- Every event that has arrived is in one place, with the network thread
holding the events `inHand`. -/
structure Accounts (network : NetworkEventQueue) (inHand : List NetEvent) :
    Prop where
  tree : network.core.store.WellFormed
  numbered : network.received.map NetEvent.arrival =
    List.range network.received.length
  known : ∀ event ∈ network.received, event.Known network.core
  /-- what is requested is not stored -/
  absent : ∀ hash ∈ network.blockFetchManager.outstandingReqs,
    network.core.store.getBlock hash = none
  /-- an event waits for a block that its block depends on -/
  depends : ∀ hash, ∀ event ∈ network.blockFetchManager.waiting hash,
    DependsOn (event.blockHash network.core.store) hash
  delivers : ∀ entry ∈ network.hotstuffEventQueue,
    entry.2.Delivers network.core.store entry.1
  balance : ∃ used : Multiset NetEvent,
    (∀ event ∈ used, event.isMessage = false) ∧
    (network.received : Multiset NetEvent) =
      inHand + network.queue.pending + network.blockFetchManager.parked +
        network.forwardedEvents + used
  failed : network.failed = none

theorem accounts_init (selfId : ReplicaID) (config : ReplicaConfig)
    (secretKey : SecretKey) :
    (init selfId config secretKey).Accounts [] where
  tree := BlockStore.wellFormed_init
  numbered := rfl
  known := nofun
  absent := nofun
  depends := nofun
  delivers := nofun
  balance := ⟨0, nofun, rfl⟩
  failed := rfl

variable {network : NetworkEventQueue} {inHand events : List NetEvent}
  {event : NetEvent}

theorem Accounts.received_of_mem (accounts : network.Accounts inHand)
    (member : event ∈ (inHand : Multiset NetEvent) + network.queue.pending +
      network.blockFetchManager.parked + network.forwardedEvents) :
    event ∈ network.received := by
  obtain ⟨used, -, balance⟩ := accounts.balance
  apply Multiset.mem_coe.mp
  rw [balance]
  exact Multiset.mem_add.mpr (.inl member)

theorem Accounts.known_inHand (accounts : network.Accounts inHand)
    (member : event ∈ inHand) : event.Known network.core := by
  apply accounts.known event
  apply accounts.received_of_mem
  simp [member]

theorem Accounts.known_waiting (accounts : network.Accounts inHand)
    {hash : Hash} (waits : event ∈ network.blockFetchManager.waiting hash) :
    event.Known network.core := by
  apply accounts.known event
  apply accounts.received_of_mem
  simp [BlockFetchManager.mem_parked_of_waiting waits]

/-- The core moves on, without storing a requested block. -/
theorem Accounts.grow (accounts : network.Accounts inHand)
    {after : HotstuffCore} (grows : network.core.Grows after)
    (absent : ∀ hash ∈ network.blockFetchManager.outstandingReqs,
      after.store.getBlock hash = none) :
    { network with core := after }.Accounts inHand where
  tree := grows.tree
  numbered := accounts.numbered
  known := fun event member => (accounts.known event member).grow grows
  absent := absent
  depends := by
    intro hash event waits
    have same := (accounts.known_waiting waits).blockHash_eq grows
    rw [same]
    exact accounts.depends hash event waits
  delivers := fun entry member => (accounts.delivers entry member).grow grows
  balance := accounts.balance
  failed := accounts.failed

/-- A message arrives. -/
theorem Accounts.receive (accounts : network.Accounts inHand)
    {netEvent : NetEventVariant}
    (known : NetEvent.Known ⟨netEvent, network.received.length⟩ network.core) :
    (network.receive netEvent).Accounts inHand where
  tree := accounts.tree
  numbered := by
    change (network.received ++ [_]).map NetEvent.arrival =
      List.range (network.received ++ [_]).length
    rw [List.map_append, accounts.numbered, List.length_append,
      List.length_singleton, List.range_succ]
    rfl
  known := by
    intro event member
    rcases List.mem_append.mp member with old | new
    · exact accounts.known event old
    · rw [List.mem_singleton.mp new]
      exact known
  absent := accounts.absent
  depends := accounts.depends
  delivers := accounts.delivers
  balance := by
    obtain ⟨used, fetched, balance⟩ := accounts.balance
    refine ⟨used, fetched, ?_⟩
    simp only [NetworkEventQueue.receive, GenericEventQueue.pending,
      GenericEventQueue.addEvents, forwardedEvents, ← Multiset.coe_add]
      at balance ⊢
    rw [balance]
    abel
  failed := accounts.failed

/-- Events move between the hands of the thread and its queue, and fetched
blocks may be used up. -/
theorem Accounts.move (accounts : network.Accounts inHand)
    {queue : GenericEventQueue NetEvent} {held : List NetEvent}
    (used : List NetEvent)
    (fetchedBlocks : ∀ event ∈ used, event.isMessage = false)
    (moved : (inHand : Multiset NetEvent) + network.queue.pending =
      held + queue.pending + used) :
    { network with queue := queue }.Accounts held where
  tree := accounts.tree
  numbered := accounts.numbered
  known := accounts.known
  absent := accounts.absent
  depends := accounts.depends
  delivers := accounts.delivers
  balance := by
    obtain ⟨before, fetched, balance⟩ := accounts.balance
    refine ⟨used + before, ?_, ?_⟩
    · intro event member
      rcases Multiset.mem_add.mp member with new | old
      · exact fetchedBlocks event new
      · exact fetched event old
    · rw [balance, moved]
      change _ = (held : Multiset NetEvent) + queue.pending +
        network.blockFetchManager.parked + network.forwardedEvents +
          (used + before)
      abel
  failed := accounts.failed

theorem Accounts.addEvents (accounts : network.Accounts (events ++ inHand)) :
    (network.addEvents events).Accounts inHand := by
  apply accounts.move [] nofun
  simp only [GenericEventQueue.pending, GenericEventQueue.addEvents,
    ← Multiset.coe_add, Multiset.coe_nil]
  abel

theorem Accounts.use (accounts : network.Accounts (event :: inHand))
    (fetchedBlock : event.isMessage = false) : network.Accounts inHand := by
  apply accounts.move [event]
  · intro other member
    rw [List.mem_singleton.mp member]
    exact fetchedBlock
  · rw [← Multiset.cons_coe, ← Multiset.singleton_add, Multiset.coe_singleton]
    abel

/-- The thread takes the next event. -/
theorem Accounts.takeFirst (accounts : network.Accounts [])
    {rest : List NetEvent} (work : network.queue.workList = event :: rest) :
    { network with
      queue := { network.queue with workList := rest } }.Accounts [event] := by
  apply accounts.move [] nofun
  simp [GenericEventQueue.pending, work]

/-- Events go from the hands of the thread to the request of a block that they
depend on. -/
theorem Accounts.addFetchRequest
    (accounts : network.Accounts (events ++ inHand)) {hash : Hash}
    {target : ReplicaID}
    (valid : network.core.config.isValidReplica target = true)
    (missing : network.core.store.getBlock hash = none)
    (dependent : ∀ event ∈ events,
      DependsOn (event.blockHash network.core.store) hash) :
    (network.addFetchRequest hash target events).Accounts inHand where
  tree := accounts.tree
  numbered := accounts.numbered
  known := accounts.known
  absent := by
    intro other requested
    rcases (BlockFetchManager.mem_addFetchRequest valid).mp requested with
      rfl | old
    · exact missing
    · exact accounts.absent other old
  depends := by
    intro other event waits
    change event ∈ (network.blockFetchManager.addFetchRequest
      network.core.config hash target events).waiting other at waits
    rw [BlockFetchManager.waiting_addFetchRequest valid] at waits
    split at waits
    case isTrue same =>
      subst same
      rcases List.mem_append.mp waits with old | new
      · exact accounts.depends other event old
      · exact dependent event new
    case isFalse different => exact accounts.depends other event waits
  delivers := accounts.delivers
  balance := by
    obtain ⟨used, fetched, balance⟩ := accounts.balance
    refine ⟨used, fetched, ?_⟩
    have parked : ((network.addFetchRequest hash target
        events).blockFetchManager.parked : Multiset NetEvent) =
          network.blockFetchManager.parked + events :=
      BlockFetchManager.parked_addFetchRequest valid
    rw [parked]
    change (network.received : Multiset NetEvent) =
      inHand + network.queue.pending +
        (network.blockFetchManager.parked + events) +
          network.forwardedEvents + used
    rw [balance, ← Multiset.coe_add]
    abel
  failed := accounts.failed

/-- The thread takes the events out of a request. -/
theorem Accounts.deliverBlock (accounts : network.Accounts inHand)
    (hash : Hash) :
    (network.deliverBlock hash).Accounts
      (network.blockFetchManager.waiting hash ++ inHand) where
  tree := accounts.tree
  numbered := accounts.numbered
  known := accounts.known
  absent := fun other requested => accounts.absent other
    (BlockFetchManager.mem_deliverBlock.mp requested).2
  depends := by
    intro other event waits
    change event ∈ (network.blockFetchManager.deliverBlock hash).2.waiting
      other at waits
    rw [BlockFetchManager.waiting_deliverBlock] at waits
    split at waits
    · cases waits
    · exact accounts.depends other event waits
  delivers := accounts.delivers
  balance := by
    obtain ⟨used, fetched, balance⟩ := accounts.balance
    refine ⟨used, fetched, ?_⟩
    change (network.received : Multiset NetEvent) =
      (network.blockFetchManager.waiting hash ++ inHand : List NetEvent) +
        network.queue.pending +
          (network.blockFetchManager.deliverBlock hash).2.parked +
            network.forwardedEvents + used
    rw [balance, network.blockFetchManager.parked_deliverBlock hash,
      ← Multiset.coe_add]
    abel
  failed := accounts.failed

theorem validate_of_delivers {store : BlockStore} (tree : store.WellFormed)
    {delivered : HotstuffEvent} (delivers : delivered.Delivers store event) :
    delivered.validate store = .ok true := by
  cases delivered with
  | vote cert p rid =>
      have hashEq := (tree.cacheSound _ _ delivers.2).1
      rw [HotstuffEvent.validate, if_neg (not_not.mpr hashEq)]
  | proposal p rid =>
      obtain ⟨parent, -, proper⟩ := tree.parent_of_linked delivers.2
      have positive : store.height p ≠ 0 := by
        rw [proper.heightEq]
        exact Nat.succ_ne_zero _
      rw [HotstuffEvent.validate, decide_eq_true positive]

/-- An event goes from the hands of the thread to the hotstuff queue. -/
theorem Accounts.forward (accounts : network.Accounts (event :: inHand))
    {delivered : HotstuffEvent}
    (delivers : delivered.Delivers network.core.store event) :
    (network.forward event delivered).Accounts inHand := by
  rw [NetworkEventQueue.forward, validate_of_delivers accounts.tree delivers]
  refine ⟨accounts.tree, accounts.numbered, accounts.known, accounts.absent,
    accounts.depends, ?_, ?_, accounts.failed⟩
  · intro entry member
    rcases List.mem_append.mp member with old | new
    · exact accounts.delivers entry old
    · rw [List.mem_singleton.mp new]
      exact delivers
  · obtain ⟨used, fetched, balance⟩ := accounts.balance
    refine ⟨used, fetched, ?_⟩
    rw [balance, ← Multiset.cons_coe, ← Multiset.singleton_add]
    simp only [forwardedEvents, List.map_append, List.map_cons, List.map_nil,
      ← Multiset.coe_add, Multiset.coe_singleton]
    abel

/-! ### Handling an event -/

omit [Externals] in
theorem isValidReplica_of_getInfo {config : ReplicaConfig} {rid : ReplicaID}
    {check : ReplicaInfo → Bool}
    (checked : (config.getInfo rid).toOption.any check = true) :
    config.isValidReplica rid = true := by
  unfold ReplicaConfig.getInfo at checked
  unfold ReplicaConfig.isValidReplica
  cases found : config.replicaMap.find? rid with
  | some info => rfl
  | none =>
      rw [found] at checked
      cases checked

omit [Externals] in
/-- What `insert_block` reports as missing. -/
theorem missing_insertBlock (store : BlockStore) (p : BlockPtr) :
    (store.insertBlock p).2 =
      { parentHash :=
          if (store.getBlock (store.block p).getParentHash).isNone then
            some (store.block p).getParentHash
          else none
        justifyHash :=
          if (store.getBlock (store.block p).getJustifyHash).isNone then
            some (store.block p).getJustifyHash
          else none } := by
  unfold BlockStore.insertBlock
  dsimp only
  cases store.getBlock (store.block p).getParentHash <;>
    cases store.getBlock (store.block p).getJustifyHash <;> rfl

/-- A block arrives of which a dependency is missing. -/
theorem Accounts.awaitDependencies (accounts : network.Accounts [event])
    {p : BlockPtr} {sender : ReplicaID} (notGenesis : p ≠ 0)
    (bound : p < network.core.store.heap.length)
    (valid : network.core.config.isValidReplica sender = true)
    (about : event.blockHash network.core.store = network.core.store.hash p)
    (missing : (network.core.store.insertBlock p).2.any = true) :
    (network.awaitDependencies event p sender
      (network.core.store.insertBlock p).2).Accounts [] := by
  have tree := accounts.tree
  have delivered := accounts.deliverBlock (network.core.store.hash p)
  -- all these events depend on the block
  have dependent : ∀ other ∈
      network.blockFetchManager.waiting (network.core.store.hash p) ++ [event],
      DependsOn (other.blockHash network.core.store)
        (network.core.store.hash p) := by
    intro other member
    rcases List.mem_append.mp member with waits | this
    · exact accounts.depends _ other waits
    · rw [List.mem_singleton.mp this, about]
      exact .refl
  have parkAt {hash : Hash} (names : Names (network.core.store.hash p) hash)
      (absent : network.core.store.getBlock hash = none) :
      ((network.deliverBlock (network.core.store.hash p)).addFetchRequest hash
        sender (network.blockFetchManager.waiting (network.core.store.hash p) ++
          [event])).Accounts [] := by
    rw [← List.append_nil (_ ++ [event])] at delivered
    exact delivered.addFetchRequest valid absent fun other member =>
      (dependent other member).tail names
  rw [missing_insertBlock] at missing ⊢
  simp only [NetworkEventQueue.awaitDependencies,
    BlockFetchManager.events_deliverBlock]
  cases parentFound : network.core.store.getBlock
      (network.core.store.block p).getParentHash with
  | none =>
      have parked := parkAt (tree.names_parent notGenesis bound) parentFound
      cases justifyFound : network.core.store.getBlock
          (network.core.store.block p).getJustifyHash with
      | none => exact parked.addFetchRequest valid justifyFound nofun
      | some justify => exact parked
  | some parent =>
      cases justifyFound : network.core.store.getBlock
          (network.core.store.block p).getJustifyHash with
      | none =>
          exact parkAt (tree.names_justify notGenesis bound) justifyFound
      | some justify =>
          rw [parentFound, justifyFound] at missing
          cases missing

/-- A block arrives with all its dependencies. -/
theorem Accounts.releaseDependents (accounts : network.Accounts [event])
    {p : BlockPtr} (notGenesis : p ≠ 0)
    (bound : p < network.core.store.heap.length)
    (complete : (network.core.store.insertBlock p).2.any = false) :
    ((network.insertBlock p).releaseDependents p).Accounts [event] ∧
      (((network.insertBlock p).core.store.block p).Linked) := by
  rcases BlockStore.insertBlock_cases network.core.store p with
    ⟨parent, justify, parentFound, justifyFound, result, -⟩ | ⟨-, -, missing⟩
  swap
  · rw [complete] at missing
    cases missing
  have storeEq : (network.insertBlock p).core.store =
      network.core.store.addLinked p parent justify := result
  have grows : network.core.Grows (network.insertBlock p).core :=
    ⟨rfl, (accounts.tree.insertBlock notGenesis bound).1,
      (accounts.tree.insertBlock notGenesis bound).2⟩
  have sameHash : (network.insertBlock p).core.store.hash p =
      network.core.store.hash p := (grows.longer.identity p bound).1
  constructor
  · have inserted := (accounts.deliverBlock (network.core.store.hash p)).grow
      grows (by
        intro hash requested
        obtain ⟨other, old⟩ := BlockFetchManager.mem_deliverBlock.mp requested
        rw [storeEq, BlockStore.getBlock_addLinked,
          if_neg fun same => other same.1]
        exact accounts.absent hash old)
    rw [NetworkEventQueue.releaseDependents, sameHash,
      BlockFetchManager.events_deliverBlock]
    exact inserted.addEvents
  · rw [storeEq, BlockStore.block_addLinked, if_pos ⟨rfl, bound⟩]
    rfl

theorem Accounts.onEvent (accounts : network.Accounts [event]) :
    (network.onEvent event).Accounts [] := by
  have known := accounts.known_inHand (List.mem_singleton_self event)
  obtain ⟨netEvent, arrival⟩ := event
  have unchanged {p : BlockPtr}
      (missing : (network.core.store.insertBlock p).2.any = true) :
      network.insertBlock p = network := by
    rcases BlockStore.insertBlock_cases network.core.store p with
      ⟨_, _, -, -, -, complete⟩ | ⟨-, result, -⟩
    · rw [complete] at missing
      cases missing
    · rw [NetworkEventQueue.insertBlock, HotstuffCore.step, result]
  cases netEvent with
  | vote cert voter =>
      simp only [NetworkEventQueue.onEvent]
      cases found : network.core.store.getBlock cert.hash with
      | some p => exact accounts.forward ⟨rfl, found⟩
      | none =>
          apply accounts.addFetchRequest (isValidReplica_of_getInfo known) found
          intro event member
          rw [List.mem_singleton.mp member]
          exact .refl
  | proposal p proposer =>
      obtain ⟨notGenesis, bound, valid⟩ := known
      simp only [NetworkEventQueue.onEvent]
      split
      case isTrue missing =>
        rw [unchanged missing]
        exact accounts.awaitDependencies notGenesis bound valid rfl missing
      case isFalse complete =>
        obtain ⟨released, linked⟩ := accounts.releaseDependents notGenesis
          bound (Bool.eq_false_of_not_eq_true complete)
        exact released.forward ⟨rfl, linked⟩
  | blockReceive p sender =>
      obtain ⟨notGenesis, bound, valid⟩ := known
      simp only [NetworkEventQueue.onEvent]
      split
      case isTrue missing =>
        rw [unchanged missing]
        exact accounts.awaitDependencies notGenesis bound valid rfl missing
      case isFalse complete =>
        obtain ⟨released, -⟩ := accounts.releaseDependents notGenesis bound
          (Bool.eq_false_of_not_eq_true complete)
        exact released.use rfl

/-! ### Runs -/

/-- The hash of a block that is minted has not been requested. -/
def NotRequested (network : NetworkEventQueue) : Action → Prop
  | .own (.doPropose body) | .own (.doEmptyPropose body) =>
      (network.core.minted body).getHash ∉
        network.blockFetchManager.outstandingReqs
  | _ => True

instance decidableNotRequested (network : NetworkEventQueue) :
    (action : Action) → Decidable (network.NotRequested action)
  | .own (.doPropose _) | .own (.doEmptyPropose _) =>
      inferInstanceAs (Decidable (_ ∉ _))
  | .own (.receiveBlock _ _) | .own (.insertBlock _) | .own (.vote _ _ _)
  | .own (.selfVote _) | .own (.proposal _ _) | .own .garbageCollect
  | .vote _ _ | .propose _ _ | .fetched _ _ | .takeEvents | .handleEvent
  | .hotstuffEvent => inferInstanceAs (Decidable True)

/-- What is in the hotstuff queue can be handed to the core. -/
theorem Accounts.enabled_hotstuffEvent (accounts : network.Accounts inHand)
    (running : network.core.failed = none) {entry : NetEvent × HotstuffEvent}
    (member : entry ∈ network.hotstuffEventQueue) :
    network.core.Enabled entry.2.toCore := by
  have delivers := accounts.delivers entry member
  have known : entry.1.Known network.core := by
    apply accounts.known
    apply accounts.received_of_mem
    apply Multiset.mem_add.mpr
    exact .inr (Multiset.mem_coe.mpr (List.mem_map_of_mem member))
  obtain ⟨⟨netEvent, arrival⟩, delivered⟩ := entry
  cases delivered with
  | vote cert p rid =>
      obtain ⟨rfl, found⟩ := delivers
      exact ⟨running, found, known⟩
  | proposal p rid =>
      obtain ⟨rfl, linked⟩ := delivers
      obtain ⟨parent, -, proper⟩ := accounts.tree.parent_of_linked linked
      refine ⟨running, ?_, known.2.2⟩
      rw [proper.heightEq]
      exact Nat.succ_ne_zero _

theorem Accounts.receiveBlock (accounts : network.Accounts [])
    {wireBlock : HotstuffBlockWire} {source : ReplicaID}
    (enabled : network.core.Enabled (.receiveBlock wireBlock source)) :
    (network.receiveBlock wireBlock source).Accounts [] ∧
      network.core.store.heap.length ≠ 0 ∧
      network.core.store.heap.length <
        (network.receiveBlock wireBlock source).core.store.heap.length ∧
      network.core.config.isValidReplica source = true := by
  refine ⟨accounts.grow (HotstuffCore.grows_of_enabled accounts.tree enabled)
    accounts.absent, accounts.tree.nonempty.ne', ?_, enabled.2.1⟩
  simp [NetworkEventQueue.receiveBlock, HotstuffCore.step, BlockStore.alloc]

theorem Accounts.next (accounts : network.Accounts []) {action : Action}
    (enabled : network.Enabled action)
    (notRequested : network.NotRequested action) :
    (network.next action).Accounts [] := by
  cases action with
  | vote cert voter => exact accounts.receive enabled.2
  | propose wireBlock proposer =>
      obtain ⟨received, known⟩ := accounts.receiveBlock enabled.2
      exact received.receive known
  | fetched wireBlock sender =>
      obtain ⟨received, known⟩ := accounts.receiveBlock enabled.2
      exact received.receive known
  | takeEvents =>
      have nothingLeft := List.isEmpty_iff.mp enabled.2.1
      apply accounts.move [] nofun
      simp [GenericEventQueue.pending, GenericEventQueue.takeEvents,
        nothingLeft]
  | handleEvent =>
      simp only [NetworkEventQueue.next, NetworkEventQueue.handleEvent]
      cases work : network.queue.workList with
      | nil => exact accounts
      | cons event rest => exact (accounts.takeFirst work).onEvent
  | hotstuffEvent =>
      simp only [NetworkEventQueue.next, NetworkEventQueue.takeHotstuffEvent]
      cases found : network.hotstuffEventQueue[network.taken]? with
      | none => exact accounts
      | some entry =>
          have ready := accounts.enabled_hotstuffEvent enabled.1.2
            (List.mem_of_getElem? found)
          have grown := accounts.grow
            (HotstuffCore.grows_of_enabled accounts.tree ready) (by
              intro hash requested
              rw [HotstuffCore.getBlock_step accounts.tree]
              · exact accounts.absent hash requested
              · intro p
                cases entry.2 <;> nofun
              · intro body
                cases entry.2 <;> nofun)
          exact { grown with }
  | own event =>
      apply accounts.grow
        (HotstuffCore.grows_of_enabled accounts.tree enabled.2.2)
      intro hash requested
      rw [HotstuffCore.getBlock_step accounts.tree]
      · exact accounts.absent hash requested
      · rintro p rfl
        cases enabled.2.1
      · rintro body (rfl | rfl) rfl
        · exact notRequested requested
        · exact notRequested requested

end NetworkEventQueue

/-- The runs in which no requested block is minted. -/
abbrev deliverySystem (selfId : ReplicaID) (config : ReplicaConfig)
    (secretKey : SecretKey) :
    TransitionSystem NetworkEventQueue NetworkEventQueue.Action :=
  (networkSystem selfId config secretKey).restrict
    NetworkEventQueue.NotRequested

variable {selfId : ReplicaID} {config : ReplicaConfig} {secretKey : SecretKey}
  {network : NetworkEventQueue}

theorem accounts_of_reachable
    (reachable : (deliverySystem selfId config secretKey).Reachable network) :
    network.Accounts [] := by
  refine reachable.invariant (NetworkEventQueue.Accounts · []) ?_ ?_
  · rintro start rfl
    exact NetworkEventQueue.accounts_init selfId config secretKey
  · intro network action _ accounts enabled
    exact accounts.next enabled.1 enabled.2

end Accounts

end Hotstuff
