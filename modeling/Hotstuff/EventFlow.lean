import Hotstuff.EventAccounts
import Hotstuff.RequestTargets

/-!
# What a replica works on

The steps of the network thread in one inversion lemma: an event is forwarded, or
it is parked and the missing block requested from its sender, or it brings a
block whose dependents are released.  From it we get that every event a replica
works on has arrived, that no vote and no proposal is lost on its way, and what
the core is handed.  Unlike the accounts of the events, these facts hold in all
runs, also when a replica mints a block that it has requested.
-/

namespace Hotstuff

section Flow

variable [WireTypes] [Externals]

/-! ### Handling one event -/

/-- The event brings a block object from a replica. -/
def NetEvent.Brings (event : NetEvent) (p : BlockPtr) (source : ReplicaID) :
    Prop :=
  event.netEvent = .proposal p source ∨ event.netEvent = .blockReceive p source

/-- The event is of use once the block with the hash is there, which its source
should have. -/
inductive NetEvent.Asks (event : NetEvent) (store : BlockStore)
    (source : ReplicaID) (hash : Hash) : Prop
  | voted {cert : PartialCertificate} (isVote : event.netEvent = .vote cert source)
      (hashEq : cert.hash = hash)
  | sent {p : BlockPtr} (brings : event.Brings p source)
      (names : Names (store.hash p) hash)

namespace NetworkEventQueue

def enqueue (network : NetworkEventQueue) (source : NetEvent)
    (delivered : HotstuffEvent) : NetworkEventQueue :=
  { network with
    hotstuffEventQueue :=
      network.hotstuffEventQueue ++ [(source, delivered)] }

/-- The events that wait for a block wait, with one more, for a block that it
depends on. -/
def repark (network : NetworkEventQueue) (event : NetEvent) (p : BlockPtr)
    (source : ReplicaID) (hash : Hash) : NetworkEventQueue :=
  (network.deliverBlock (network.core.store.hash p)).addFetchRequest hash
    source (network.blockFetchManager.waiting (network.core.store.hash p) ++
      [event])

/-- A block is stored, and the events that waited for it are handled again. -/
def storeBlock (network : NetworkEventQueue) (p : BlockPtr) :
    NetworkEventQueue :=
  (network.insertBlock p).releaseDependents p

/-- What the network thread does with an event. -/
inductive Handled (network : NetworkEventQueue) (event : NetEvent) :
    NetworkEventQueue → Prop
  | vote {cert : PartialCertificate} {voter : ReplicaID} {p : BlockPtr}
      (isVote : event.netEvent = .vote cert voter)
      (found : network.core.store.getBlock cert.hash = some p) :
      Handled network event (network.enqueue event (.vote cert p voter))
  | unknownVote {cert : PartialCertificate} {voter : ReplicaID}
      (isVote : event.netEvent = .vote cert voter)
      (missing : network.core.store.getBlock cert.hash = none) :
      Handled network event (network.addFetchRequest cert.hash voter [event])
  | incomplete {p : BlockPtr} {source : ReplicaID} {hash : Hash}
      (brings : event.Brings p source)
      (missing : network.core.store.missing p = [hash]) :
      Handled network event (network.repark event p source hash)
  | doublyIncomplete {p : BlockPtr} {source : ReplicaID} {hash further : Hash}
      (brings : event.Brings p source)
      (missing : network.core.store.missing p = [hash, further]) :
      Handled network event
        ((network.repark event p source hash).addFetchRequest further source [])
  | stored {p : BlockPtr} {source : ReplicaID}
      (isBlock : event.netEvent = .blockReceive p source)
      (complete : network.core.store.missing p = [])
      (linked : ((network.insertBlock p).core.store.block p).Linked) :
      Handled network event (network.storeBlock p)
  | proposed {p : BlockPtr} {source : ReplicaID}
      (isProposal : event.netEvent = .proposal p source)
      (complete : network.core.store.missing p = [])
      (linked : ((network.insertBlock p).core.store.block p).Linked) :
      Handled network event
        ((network.storeBlock p).enqueue event (.proposal p source))

variable {network after : NetworkEventQueue} {event : NetEvent}

theorem forward_eq (network : NetworkEventQueue) (event : NetEvent)
    (delivered : HotstuffEvent) (tree : network.core.store.WellFormed)
    (delivers : delivered.Delivers network.core.store event) :
    network.forward event delivered = network.enqueue event delivered := by
  rw [NetworkEventQueue.forward, validate_of_delivers tree delivers, enqueue]

/-- A block of which a dependency is missing. -/
theorem handled_incomplete {p : BlockPtr} {source : ReplicaID}
    (brings : event.Brings p source)
    (missing : (network.core.store.insertBlock p).2.any = true) :
    Handled network event ((network.insertBlock p).awaitDependencies event p
      source (network.core.store.insertBlock p).2) := by
  have unchanged : network.insertBlock p = network := by
    rcases BlockStore.insertBlock_cases network.core.store p with
      ⟨_, _, -, -, -, complete⟩ | ⟨-, result, -⟩
    · rw [complete] at missing
      cases missing
    · rw [NetworkEventQueue.insertBlock, HotstuffCore.step, result]
  rw [unchanged]
  rw [missing_insertBlock] at missing ⊢
  simp only [NetworkEventQueue.awaitDependencies,
    BlockFetchManager.events_deliverBlock]
  cases parentFound : network.core.store.getBlock
      (network.core.store.block p).getParentHash with
  | none =>
      cases justifyFound : network.core.store.getBlock
          (network.core.store.block p).getJustifyHash with
      | none =>
          refine .doublyIncomplete brings ?_
          simp [BlockStore.missing, BlockStore.dependencies, parentFound,
            justifyFound]
      | some found =>
          refine .incomplete brings ?_
          simp [BlockStore.missing, BlockStore.dependencies, parentFound,
            justifyFound]
  | some found =>
      cases justifyFound : network.core.store.getBlock
          (network.core.store.block p).getJustifyHash with
      | none =>
          refine .incomplete brings ?_
          simp [BlockStore.missing, BlockStore.dependencies, parentFound,
            justifyFound]
      | some found =>
          rw [parentFound, justifyFound] at missing
          cases missing

/-- A block of which nothing is missing. -/
theorem linked_insertBlock {p : BlockPtr}
    (bound : p < network.core.store.heap.length)
    (complete : (network.core.store.insertBlock p).2.any ≠ true) :
    network.core.store.missing p = [] ∧
      ((network.insertBlock p).core.store.block p).Linked := by
  rcases BlockStore.insertBlock_cases network.core.store p with
    ⟨parent, justify, parentFound, justifyFound, result, -⟩ | ⟨-, -, missing⟩
  · have storeEq : (network.insertBlock p).core.store =
        network.core.store.addLinked p parent justify := result
    rw [storeEq, BlockStore.block_addLinked, if_pos ⟨rfl, bound⟩]
    refine ⟨?_, rfl⟩
    simp [BlockStore.missing, BlockStore.dependencies, parentFound,
      justifyFound]
  · exact (complete missing).elim

theorem handled_onEvent (tree : network.core.store.WellFormed)
    (known : event.Known network.core) :
    Handled network event (network.onEvent event) := by
  obtain ⟨netEvent, arrival⟩ := event
  cases netEvent with
  | vote cert voter =>
      simp only [NetworkEventQueue.onEvent]
      cases found : network.core.store.getBlock cert.hash with
      | some p =>
          dsimp only
          rw [forward_eq network _ (.vote cert p voter) tree ⟨rfl, found⟩]
          exact .vote rfl found
      | none => exact .unknownVote rfl found
  | proposal p proposer =>
      obtain ⟨notGenesis, bound, -⟩ := known
      simp only [NetworkEventQueue.onEvent]
      split
      case isTrue missing =>
        exact handled_incomplete (.inl rfl) missing
      case isFalse complete =>
        obtain ⟨complete, linked⟩ := linked_insertBlock bound complete
        have grown := (tree.insertBlock notGenesis bound).1
        rw [forward_eq ((network.insertBlock p).releaseDependents p)
          ⟨.proposal p proposer, arrival⟩ (.proposal p proposer) grown
          ⟨rfl, linked⟩]
        exact .proposed rfl complete linked
  | blockReceive p sender =>
      obtain ⟨notGenesis, bound, -⟩ := known
      simp only [NetworkEventQueue.onEvent]
      split
      case isTrue missing =>
        exact handled_incomplete (.inr rfl) missing
      case isFalse complete =>
        obtain ⟨complete, linked⟩ := linked_insertBlock bound complete
        exact .stored rfl complete linked

/-! ### The places of an event -/

/-- The event is in the queue, in a request or in the hotstuff queue. -/
def Holds (network : NetworkEventQueue) (event : NetEvent) : Prop :=
  event ∈ network.queue.pending ∨ event ∈ network.blockFetchManager.parked ∨
    event ∈ network.forwardedEvents

/-- The same events, with their number. -/
def held (network : NetworkEventQueue) : Multiset NetEvent :=
  network.queue.pending + network.blockFetchManager.parked +
    network.forwardedEvents

omit [Externals] in
theorem mem_held : event ∈ network.held ↔ network.Holds event := by
  simp only [held, Holds, Multiset.mem_add, Multiset.mem_coe, or_assoc]

omit [Externals] in
theorem held_enqueue (network : NetworkEventQueue) (source : NetEvent)
    (delivered : HotstuffEvent) :
    (network.enqueue source delivered).held = network.held + {source} := by
  simp only [held, enqueue, forwardedEvents, List.map_append, List.map_cons,
    List.map_nil, ← Multiset.coe_add, Multiset.coe_singleton, add_assoc]

omit [Externals] in
theorem held_addEvents (network : NetworkEventQueue) (events : List NetEvent) :
    (network.addEvents events).held = network.held + events := by
  simp only [held, NetworkEventQueue.addEvents, GenericEventQueue.pending,
    GenericEventQueue.addEvents, forwardedEvents, ← Multiset.coe_add]
  abel

omit [Externals] in
theorem held_addFetchRequest {hash : Hash} {target : ReplicaID}
    {events : List NetEvent}
    (valid : network.core.config.isValidReplica target = true) :
    (network.addFetchRequest hash target events).held =
      network.held + events := by
  have parked : ((network.blockFetchManager.addFetchRequest
      network.core.config hash target events).parked : Multiset NetEvent) =
        network.blockFetchManager.parked + events :=
    BlockFetchManager.parked_addFetchRequest valid
  change (network.queue.pending : Multiset NetEvent) +
    (network.blockFetchManager.addFetchRequest network.core.config hash target
      events).parked + network.forwardedEvents = _
  rw [parked, held]
  abel

omit [Externals] in
theorem held_deliverBlock (network : NetworkEventQueue) (hash : Hash) :
    network.held = (network.deliverBlock hash).held +
      network.blockFetchManager.waiting hash := by
  rw [held, network.blockFetchManager.parked_deliverBlock hash]
  change _ = (network.queue.pending : Multiset NetEvent) +
    (network.blockFetchManager.deliverBlock hash).2.parked +
      network.forwardedEvents + _
  abel

omit [Externals] in
theorem held_repark {p : BlockPtr} {source : ReplicaID} {hash : Hash}
    (valid : network.core.config.isValidReplica source = true) :
    (network.repark event p source hash).held = network.held + {event} := by
  have valid' : (network.deliverBlock
      (network.core.store.hash p)).core.config.isValidReplica source = true :=
    valid
  rw [repark, held_addFetchRequest valid', ← Multiset.coe_add,
    Multiset.coe_singleton, ← add_assoc, ← held_deliverBlock]

theorem held_storeBlock (network : NetworkEventQueue) (p : BlockPtr) :
    (network.storeBlock p).held = network.held := by
  rw [storeBlock, NetworkEventQueue.releaseDependents, held_addEvents,
    BlockFetchManager.events_deliverBlock, ← held_deliverBlock]
  rfl

theorem NetEvent.Brings.valid {p : BlockPtr} {source : ReplicaID}
    (brings : event.Brings p source) (known : event.Known network.core) :
    network.core.config.isValidReplica source = true := by
  obtain ⟨netEvent, arrival⟩ := event
  rcases brings with rfl | rfl
  · exact known.2.2
  · exact known.2.2

theorem NetEvent.Brings.known {p : BlockPtr} {source : ReplicaID}
    (brings : event.Brings p source) (known : event.Known network.core) :
    p ≠ 0 ∧ p < network.core.store.heap.length := by
  obtain ⟨netEvent, arrival⟩ := event
  rcases brings with rfl | rfl
  · exact ⟨known.1, known.2.1⟩
  · exact ⟨known.1, known.2.1⟩

/-- To the core, handling an event is the insertion of a block or nothing. -/
theorem Handled.core (handled : Handled network event after)
    (known : event.Known network.core) :
    after.core = network.core ∨
      ∃ p, p ≠ 0 ∧ p < network.core.store.heap.length ∧
        after.core = network.core.step (.insertBlock p) := by
  cases handled with
  | vote | unknownVote | incomplete | doublyIncomplete => exact .inl rfl
  | @stored p source isBlock =>
      obtain ⟨notGenesis, bound⟩ := NetEvent.Brings.known (.inr isBlock) known
      exact .inr ⟨p, notGenesis, bound, rfl⟩
  | @proposed p source isProposal =>
      obtain ⟨notGenesis, bound⟩ :=
        NetEvent.Brings.known (.inl isProposal) known
      exact .inr ⟨p, notGenesis, bound, rfl⟩

theorem Handled.grows (handled : Handled network event after)
    (tree : network.core.store.WellFormed)
    (known : event.Known network.core) : network.core.Grows after.core := by
  rcases handled.core known with same | ⟨p, notGenesis, bound, inserted⟩
  · rw [same]
    exact ⟨rfl, tree, .refl _⟩
  · rw [inserted]
    obtain ⟨grown, longer⟩ := tree.insertBlock notGenesis bound
    exact ⟨rfl, grown, longer⟩

/-- The event is no longer needed: it has brought a block that is stored. -/
def Used (core : HotstuffCore) (event : NetEvent) : Prop :=
  ∃ p source, event.netEvent = .blockReceive p source ∧
    core.Stores (core.store.hash p)

theorem Used.grow {core grown : HotstuffCore} (used : Used core event)
    (known : event.Known core) (grows : core.Grows grown) :
    Used grown event := by
  obtain ⟨p, source, isBlock, stores⟩ := used
  obtain ⟨netEvent, arrival⟩ := event
  obtain rfl : netEvent = _ := isBlock
  refine ⟨p, source, rfl, ?_⟩
  rw [(grows.longer.identity p known.2.1).1]
  exact grows.stores stores

/-- No event appears from nowhere, and none is lost unless it is used. -/
theorem Handled.held (handled : Handled network event after)
    (tree : network.core.store.WellFormed)
    (known : event.Known network.core) :
    after.held = network.held + {event} ∨
      after.held = network.held ∧ Used after.core event := by
  cases handled with
  | vote => exact .inl (held_enqueue _ _ _)
  | @unknownVote cert voter isVote missing =>
      have valid : network.core.config.isValidReplica voter = true := by
        obtain ⟨netEvent, arrival⟩ := event
        obtain rfl : netEvent = _ := isVote
        exact isValidReplica_of_getInfo known
      exact .inl (held_addFetchRequest valid)
  | incomplete brings =>
      exact .inl (held_repark (NetEvent.Brings.valid brings known))
  | @doublyIncomplete p source hash further brings =>
      have valid := NetEvent.Brings.valid brings known
      have valid' : (network.repark event p source
        hash).core.config.isValidReplica source = true := valid
      left
      rw [held_addFetchRequest valid', held_repark valid, Multiset.coe_nil,
        add_zero]
  | @stored p source isBlock complete linked =>
      obtain ⟨notGenesis, bound⟩ := NetEvent.Brings.known (.inr isBlock) known
      refine .inr ⟨held_storeBlock _ _, p, source, isBlock, ?_⟩
      exact (tree.insertBlock notGenesis bound).1.linkedCached p linked
  | proposed =>
      left
      rw [held_enqueue, held_storeBlock]

theorem NetEvent.Known.asks_iff {core grown : HotstuffCore}
    (known : event.Known core) (grows : core.Grows grown) {source : ReplicaID}
    {hash : Hash} :
    event.Asks grown.store source hash ↔ event.Asks core.store source hash := by
  have sameHash {p : BlockPtr} (brings : event.Brings p source) :
      grown.store.hash p = core.store.hash p := by
    obtain ⟨netEvent, arrival⟩ := event
    rcases brings with rfl | rfl
    · exact known.blockHash_eq grows
    · exact known.blockHash_eq grows
  constructor
  · intro asks
    cases asks with
    | voted isVote hashEq => exact .voted isVote hashEq
    | sent brings names => exact .sent brings (sameHash brings ▸ names)
  · intro asks
    cases asks with
    | voted isVote hashEq => exact .voted isVote hashEq
    | sent brings names => exact .sent brings ((sameHash brings).symm ▸ names)

/-- An event waits for a block that it asks for, or that such a block depends
on. -/
def Depends (network : NetworkEventQueue) : Prop :=
  ∀ hash, ∀ event ∈ network.blockFetchManager.waiting hash,
    ∃ source asked, event.Asks network.core.store source asked ∧
      DependsOn asked hash

section Waiting

open BlockFetchManager

theorem depends_repark (depends : network.Depends)
    (tree : network.core.store.WellFormed) (known : event.Known network.core)
    {p : BlockPtr} {source : ReplicaID} (brings : event.Brings p source)
    {missing : Hash} (absent : missing ∈ network.core.store.missing p) :
    (network.repark event p source missing).Depends := by
  intro hash other waiting
  obtain ⟨notGenesis, bound⟩ := NetEvent.Brings.known brings known
  have names := tree.names_dependency notGenesis bound
    (BlockStore.mem_missing.mp absent).1
  have left {hash : Hash} (waiting : other ∈
      (network.blockFetchManager.deliverBlock
        (network.core.store.hash p)).2.waiting hash) :
      ∃ source asked, other.Asks network.core.store source asked ∧
        DependsOn asked hash := by
    rw [waiting_deliverBlock] at waiting
    split at waiting
    · cases waiting
    · exact depends hash other waiting
  change other ∈ BlockFetchManager.waiting (BlockFetchManager.addFetchRequest _
    network.core.config missing source _) hash at waiting
  rw [waiting_addFetchRequest (NetEvent.Brings.valid brings known)] at waiting
  split at waiting
  · rename_i same
    subst same
    rcases List.mem_append.mp waiting with before | moved
    · exact left before
    · rcases List.mem_append.mp moved with waited | inHand
      · obtain ⟨asker, asked, asks, dependsOn⟩ := depends _ other waited
        exact ⟨asker, asked, asks, dependsOn.tail names⟩
      · rw [List.mem_singleton.mp inHand]
        exact ⟨source, hash, .sent brings names, .refl⟩
  · exact left waiting

theorem Handled.depends (handled : Handled network event after)
    (depends : network.Depends) (tree : network.core.store.WellFormed)
    (known : event.Known network.core) :
    ∀ hash, ∀ other ∈ after.blockFetchManager.waiting hash,
      ∃ source asked, other.Asks network.core.store source asked ∧
        DependsOn asked hash := by
  intro hash other waiting
  have released {released : Hash} (waiting : other ∈
      (network.blockFetchManager.deliverBlock released).2.waiting hash) :
      ∃ source asked, other.Asks network.core.store source asked ∧
        DependsOn asked hash := by
    rw [waiting_deliverBlock] at waiting
    split at waiting
    · cases waiting
    · exact depends hash other waiting
  cases handled with
  | vote => exact depends hash other waiting
  | @unknownVote cert voter isVote missing =>
      have valid : network.core.config.isValidReplica voter = true := by
        obtain ⟨netEvent, arrival⟩ := event
        obtain rfl : netEvent = _ := isVote
        exact isValidReplica_of_getInfo known
      change other ∈ BlockFetchManager.waiting (BlockFetchManager.addFetchRequest
        _ network.core.config cert.hash voter _) hash at waiting
      rw [waiting_addFetchRequest valid] at waiting
      split at waiting
      · rename_i same
        subst same
        rcases List.mem_append.mp waiting with before | inHand
        · exact depends _ other before
        · rw [List.mem_singleton.mp inHand]
          exact ⟨voter, cert.hash, .voted isVote rfl, .refl⟩
      · exact depends hash other waiting
  | incomplete brings missing =>
      exact depends_repark depends tree known brings
        (missing ▸ List.mem_singleton_self _) hash other waiting
  | @doublyIncomplete p source first further brings missing =>
      change other ∈ BlockFetchManager.waiting
        (BlockFetchManager.addFetchRequest _ network.core.config further
          source []) hash at waiting
      rw [waiting_addFetchRequest (NetEvent.Brings.valid brings known),
        List.append_nil] at waiting
      refine depends_repark depends tree known brings
        (missing ▸ List.mem_cons_self) hash other ?_
      split at waiting
      · rename_i same
        rw [same]
        exact waiting
      · exact waiting
  | stored | proposed => exact released waiting

end Waiting

/-- What is new in the hotstuff queue is the event. -/
theorem Handled.hotstuffEventQueue (handled : Handled network event after)
    {entry : NetEvent × HotstuffEvent}
    (member : entry ∈ after.hotstuffEventQueue) :
    entry ∈ network.hotstuffEventQueue ∨
      entry.1 = event ∧ entry.2.Delivers after.core.store event := by
  have ofEnqueue {middle : NetworkEventQueue} {delivered : HotstuffEvent}
      (queued : entry ∈ (middle.enqueue event delivered).hotstuffEventQueue)
      (delivers : delivered.Delivers middle.core.store event) :
      entry ∈ middle.hotstuffEventQueue ∨
        entry.1 = event ∧ entry.2.Delivers middle.core.store event := by
    rcases List.mem_append.mp queued with old | new
    · exact .inl old
    · rw [List.mem_singleton.mp new]
      exact .inr ⟨rfl, delivers⟩
  cases handled with
  | vote isVote found => exact ofEnqueue member ⟨isVote, found⟩
  | unknownVote | incomplete | doublyIncomplete | stored => exact .inl member
  | proposed isProposal _ linked =>
      exact ofEnqueue member ⟨isProposal, linked⟩

theorem Handled.received (handled : Handled network event after) :
    after.received = network.received := by
  cases handled <;> rfl

theorem Handled.failed (handled : Handled network event after) :
    after.failed = network.failed := by
  cases handled <;> rfl

/-! ### Runs -/

/-- Every event that has arrived is worked on or used, with the network thread
holding the events `inHand`. -/
structure Attended (network : NetworkEventQueue) (inHand : List NetEvent) :
    Prop where
  tree : network.core.store.WellFormed
  numbered : network.received.map NetEvent.arrival =
    List.range network.received.length
  known : ∀ event ∈ network.received, event.Known network.core
  balance : ∃ used : Multiset NetEvent,
    (∀ event ∈ used, Used network.core event) ∧
    (network.received : Multiset NetEvent) = network.held + inHand + used
  depends : network.Depends
  delivers : ∀ entry ∈ network.hotstuffEventQueue,
    entry.2.Delivers network.core.store entry.1
  failed : network.failed = none

theorem attended_init (selfId : ReplicaID) (config : ReplicaConfig)
    (secretKey : SecretKey) : (init selfId config secretKey).Attended [] where
  tree := BlockStore.wellFormed_init
  numbered := rfl
  known := nofun
  balance := ⟨0, nofun, rfl⟩
  depends := nofun
  delivers := nofun
  failed := rfl

variable {inHand : List NetEvent}

theorem Attended.arrival_lt (attended : network.Attended inHand)
    (arrived : event ∈ network.received) :
    event.arrival < network.received.length := by
  rw [← List.mem_range, ← attended.numbered]
  exact List.mem_map_of_mem arrived

theorem Attended.arrived (attended : network.Attended inHand)
    (event : NetEvent) (here : network.Holds event ∨ event ∈ inHand) :
    event ∈ network.received := by
  obtain ⟨used, -, balance⟩ := attended.balance
  rw [← Multiset.mem_coe, balance, Multiset.mem_add, Multiset.mem_add,
    mem_held]
  exact .inl here

/-- No event is lost unless it is used. -/
theorem Attended.present (attended : network.Attended inHand)
    (arrived : event ∈ network.received) :
    network.Holds event ∨ event ∈ inHand ∨ Used network.core event := by
  obtain ⟨used, fetched, balance⟩ := attended.balance
  rw [← Multiset.mem_coe, balance, Multiset.mem_add, Multiset.mem_add,
    mem_held] at arrived
  rcases arrived with (holds | inHand) | gone
  · exact .inl holds
  · exact .inr (.inl inHand)
  · exact .inr (.inr (fetched event gone))

/-- No vote and no proposal is lost. -/
theorem Attended.kept (attended : network.Attended inHand) (event : NetEvent)
    (arrived : event ∈ network.received) (isMessage : event.isMessage = true) :
    network.Holds event ∨ event ∈ inHand := by
  rcases attended.present arrived with holds | inHand | ⟨p, source, isBlock, -⟩
  · exact .inl holds
  · exact .inr inHand
  · rw [NetEvent.isMessage, isBlock] at isMessage
    cases isMessage

theorem Attended.nodup_numbers (attended : network.Attended inHand) :
    (network.received.map NetEvent.arrival).Nodup := by
  rw [attended.numbered]
  exact List.nodup_range

/-- No event is in two places. -/
theorem Attended.nodup_held (attended : network.Attended inHand) :
    network.held.Nodup := by
  obtain ⟨used, -, balance⟩ := attended.balance
  have distinct : (network.received : Multiset NetEvent).Nodup :=
    Multiset.coe_nodup.mpr attended.nodup_numbers.of_map
  rw [balance] at distinct
  exact Multiset.nodup_of_le ((Multiset.le_add_right _ _).trans
    (Multiset.le_add_right _ _)) distinct

theorem Attended.handle (attended : network.Attended [event])
    (handled : Handled network event after) : after.Attended [] := by
  have known : event.Known network.core := by
    apply attended.known event
    exact attended.arrived event (.inr (List.mem_singleton_self event))
  have grows := handled.grows attended.tree known
  constructor
  case tree => exact grows.tree
  case numbered => rw [handled.received, attended.numbered]
  case known =>
    intro other member
    rw [handled.received] at member
    exact (attended.known other member).grow grows
  case balance =>
    obtain ⟨used, fetched, balance⟩ := attended.balance
    have arrived (other : NetEvent) (gone : other ∈ used) :
        other ∈ network.received := by
      rw [← Multiset.mem_coe, balance]
      exact Multiset.mem_add.mpr (.inr gone)
    have stillUsed (other : NetEvent) (gone : other ∈ used) :
        Used after.core other :=
      (fetched other gone).grow (attended.known other (arrived other gone)) grows
    rw [handled.received, balance, Multiset.coe_nil, Multiset.coe_singleton]
    rcases handled.held attended.tree known with same | ⟨same, usedNow⟩
    · exact ⟨used, stillUsed, by rw [same, add_zero]⟩
    · refine ⟨{event} + used, ?_, ?_⟩
      · intro other gone
        rcases Multiset.mem_add.mp gone with new | old
        · rw [Multiset.mem_singleton.mp new]
          exact usedNow
        · exact stillUsed other old
      · rw [same, add_zero, add_assoc]
  case depends =>
    intro hash other waiting
    have here : other ∈ after.held := mem_held.mpr
      (.inr (.inl (BlockFetchManager.mem_parked_of_waiting waiting)))
    have arrived : other ∈ network.received := by
      apply attended.arrived
      rcases handled.held attended.tree known with same | ⟨same, -⟩ <;>
        rw [same] at here
      · rcases Multiset.mem_add.mp here with old | new
        · exact .inl (mem_held.mp old)
        · exact .inr (List.mem_singleton.mpr (Multiset.mem_singleton.mp new))
      · exact .inl (mem_held.mp here)
    obtain ⟨source, asked, asks, dependsOn⟩ :=
      handled.depends attended.depends attended.tree known hash other waiting
    exact ⟨source, asked,
      (NetEvent.Known.asks_iff (attended.known other arrived) grows).mpr asks,
      dependsOn⟩
  case delivers =>
    intro entry member
    rcases handled.hotstuffEventQueue member with old | ⟨rfl, delivers⟩
    · exact (attended.delivers entry old).grow grows
    · exact delivers
  case failed => rw [handled.failed, attended.failed]

/-- The core moves on. -/
theorem Attended.grow (attended : network.Attended inHand)
    {core : HotstuffCore} (grows : network.core.Grows core) :
    { network with core := core }.Attended inHand where
  tree := grows.tree
  numbered := attended.numbered
  known := fun event member => (attended.known event member).grow grows
  balance := by
    obtain ⟨used, fetched, balance⟩ := attended.balance
    refine ⟨used, ?_, balance⟩
    intro event gone
    apply (fetched event gone).grow (attended.known event _) grows
    rw [← Multiset.mem_coe, balance]
    exact Multiset.mem_add.mpr (.inr gone)
  depends := by
    intro hash event waiting
    have arrived := attended.arrived event
      (.inl (.inr (.inl (BlockFetchManager.mem_parked_of_waiting waiting))))
    obtain ⟨source, asked, asks, dependsOn⟩ :=
      attended.depends hash event waiting
    exact ⟨source, asked,
      (NetEvent.Known.asks_iff (attended.known event arrived) grows).mpr asks,
      dependsOn⟩
  delivers := fun entry member => (attended.delivers entry member).grow grows
  failed := attended.failed

theorem Attended.receive (attended : network.Attended [])
    {netEvent : NetEventVariant}
    (known : NetEvent.Known ⟨netEvent, network.received.length⟩ network.core) :
    (network.receive netEvent).Attended [] := by
  constructor
  case tree => exact attended.tree
  case numbered =>
    change (network.received ++ [_]).map NetEvent.arrival =
      List.range (network.received ++ [_]).length
    rw [List.map_append, attended.numbered, List.length_append,
      List.length_singleton, List.range_succ]
    rfl
  case known =>
    intro event member
    rcases List.mem_append.mp member with old | new
    · exact attended.known event old
    · rw [List.mem_singleton.mp new]
      exact known
  case balance =>
    obtain ⟨used, fetched, balance⟩ := attended.balance
    refine ⟨used, fetched, ?_⟩
    let event : NetEvent := ⟨netEvent, network.received.length⟩
    have added : (network.receive netEvent).held = network.held + [event] :=
      network.held_addEvents [event]
    change ((network.received ++ [event] : List NetEvent) :
      Multiset NetEvent) = _
    rw [added, ← Multiset.coe_add, balance]
    abel
  case depends => exact attended.depends
  case delivers => exact attended.delivers
  case failed => exact attended.failed

/-- The thread takes the next event. -/
theorem Attended.takeFirst (attended : network.Attended [])
    {rest : List NetEvent} (work : network.queue.workList = event :: rest) :
    { network with
      queue := { network.queue with workList := rest } }.Attended [event] := by
  have split : network.held =
      { network with
        queue := { network.queue with workList := rest } }.held + {event} := by
    simp only [held, GenericEventQueue.pending, work, List.cons_append,
      ← Multiset.cons_coe, forwardedEvents]
    rw [← Multiset.singleton_add]
    abel
  obtain ⟨used, fetched, balance⟩ := attended.balance
  refine { attended with balance := ⟨used, fetched, ?_⟩ }
  rw [balance, split, Multiset.coe_nil, add_zero, Multiset.coe_singleton]

/-- What is in the hotstuff queue can be handed to the core. -/
theorem Attended.enabled_hotstuffEvent (attended : network.Attended inHand)
    (running : network.core.failed = none) {entry : NetEvent × HotstuffEvent}
    (member : entry ∈ network.hotstuffEventQueue) :
    network.core.Enabled entry.2.toCore := by
  have delivers := attended.delivers entry member
  have known : entry.1.Known network.core := by
    apply attended.known
    apply attended.arrived
    exact .inl (.inr (.inr (List.mem_map_of_mem member)))
  obtain ⟨⟨netEvent, arrival⟩, delivered⟩ := entry
  cases delivered with
  | vote cert p rid =>
      obtain ⟨rfl, found⟩ := delivers
      exact ⟨running, found, known⟩
  | proposal p rid =>
      obtain ⟨rfl, linked⟩ := delivers
      obtain ⟨parent, -, proper⟩ := attended.tree.parent_of_linked linked
      refine ⟨running, ?_, known.2.2⟩
      rw [proper.heightEq]
      exact Nat.succ_ne_zero _

theorem Attended.receiveBlock (attended : network.Attended [])
    {wireBlock : HotstuffBlockWire} {source : ReplicaID}
    (enabled : network.core.Enabled (.receiveBlock wireBlock source)) :
    (network.receiveBlock wireBlock source).Attended [] ∧
      network.core.store.heap.length ≠ 0 ∧
      network.core.store.heap.length <
        (network.receiveBlock wireBlock source).core.store.heap.length ∧
      network.core.config.isValidReplica source = true := by
  refine ⟨attended.grow (HotstuffCore.grows_of_enabled attended.tree enabled),
    attended.tree.nonempty.ne', ?_, enabled.2.1⟩
  simp [NetworkEventQueue.receiveBlock, HotstuffCore.step, BlockStore.alloc]

theorem Attended.handleEvent (attended : network.Attended [])
    {rest : List NetEvent} (work : network.queue.workList = event :: rest) :
    Handled { network with queue := { network.queue with workList := rest } }
      event network.handleEvent := by
  have taken := attended.takeFirst work
  have known : event.Known network.core :=
    taken.known event (taken.arrived event (.inr (List.mem_singleton_self _)))
  unfold NetworkEventQueue.handleEvent
  rw [work]
  exact handled_onEvent taken.tree known

theorem Attended.next (attended : network.Attended []) {action : Action}
    (enabled : network.Enabled action) : (network.next action).Attended [] := by
  cases action with
  | vote cert voter => exact attended.receive enabled.2
  | propose wireBlock proposer =>
      obtain ⟨received, known⟩ := attended.receiveBlock enabled.2
      exact received.receive known
  | fetched wireBlock sender =>
      obtain ⟨received, known⟩ := attended.receiveBlock enabled.2
      exact received.receive known
  | takeEvents =>
      have nothingLeft := List.isEmpty_iff.mp enabled.2.1
      have same : (network.next .takeEvents).held = network.held := by
        simp [held, NetworkEventQueue.next, GenericEventQueue.pending,
          GenericEventQueue.takeEvents, nothingLeft, forwardedEvents]
      obtain ⟨used, fetched, balance⟩ := attended.balance
      exact { attended with balance := ⟨used, fetched, by rw [same]; exact balance⟩ }
  | handleEvent =>
      cases work : network.queue.workList with
      | nil =>
          rw [NetworkEventQueue.next, NetworkEventQueue.handleEvent, work]
          exact attended
      | cons event rest =>
          exact (attended.takeFirst work).handle (attended.handleEvent work)
  | hotstuffEvent =>
      simp only [NetworkEventQueue.next, NetworkEventQueue.takeHotstuffEvent]
      cases found : network.hotstuffEventQueue[network.taken]? with
      | none => exact attended
      | some entry =>
          have ready := attended.enabled_hotstuffEvent enabled.1.2
            (List.mem_of_getElem? found)
          have grown := attended.grow
            (HotstuffCore.grows_of_enabled attended.tree ready)
          exact { grown with }
  | own event =>
      exact attended.grow
        (HotstuffCore.grows_of_enabled attended.tree enabled.2.2)

/-- The event that arrives in a step. -/
def arrivals (network : NetworkEventQueue) : Action → List NetEvent
  | .vote cert voter => [⟨.vote cert voter, network.received.length⟩]
  | .propose _ proposer =>
      [⟨.proposal network.core.store.heap.length proposer,
        network.received.length⟩]
  | .fetched _ sender =>
      [⟨.blockReceive network.core.store.heap.length sender,
        network.received.length⟩]
  | .takeEvents | .handleEvent | .hotstuffEvent | .own _ => []

theorem Attended.received_next (attended : network.Attended [])
    (action : Action) :
    (network.next action).received =
      network.received ++ network.arrivals action := by
  cases action with
  | vote | propose | fetched => rfl
  | takeEvents | own => exact (List.append_nil _).symm
  | handleEvent =>
      refine Eq.trans ?_ (List.append_nil _).symm
      cases work : network.queue.workList with
      | nil => rw [NetworkEventQueue.next, NetworkEventQueue.handleEvent, work]
      | cons event rest => exact (attended.handleEvent work).received
  | hotstuffEvent =>
      refine Eq.trans ?_ (List.append_nil _).symm
      simp only [NetworkEventQueue.next, NetworkEventQueue.takeHotstuffEvent]
      split <;> rfl

/-- The consensus thread takes the event from its queue. -/
def HandsEntry (network : NetworkEventQueue) (action : Action)
    (delivered : HotstuffEvent) : Prop :=
  action = .hotstuffEvent ∧ ∃ event ∈ network.received,
    network.hotstuffEventQueue[network.taken]? = some (event, delivered) ∧
      delivered.Delivers network.core.store event

/-- Where the core has its event from: a block has just arrived, a vote or a
proposal is taken from a queue.  Blocks are minted and garbage is collected in no
other step. -/
def Hands (network : NetworkEventQueue) (action : Action) :
    HotstuffCore.Event → Prop
  | .receiveBlock wireBlock source =>
      action = .propose wireBlock source ∨ action = .fetched wireBlock source
  | .vote cert p voter => network.HandsEntry action (.vote cert p voter)
  | .proposal p proposer =>
      action = .own (.proposal p proposer) ∨
        network.HandsEntry action (.proposal p proposer)
  | .selfVote p => action = .own (.selfVote p)
  | .doPropose body => action = .own (.doPropose body)
  | .doEmptyPropose body => action = .own (.doEmptyPropose body)
  | .garbageCollect => action = .own .garbageCollect
  | _ => True

/-- To the core a step is one of its events or nothing. -/
theorem Attended.core_next (attended : network.Attended []) {action : Action}
    (enabled : network.Enabled action) :
    (network.next action).core = network.core ∨
      ∃ event, network.core.Enabled event ∧
        (network.next action).core = network.core.step event ∧
        network.Hands action event := by
  cases action with
  | vote | takeEvents => exact .inl rfl
  | propose wireBlock proposer =>
      exact .inr ⟨_, enabled.2, rfl, .inl rfl⟩
  | fetched wireBlock sender => exact .inr ⟨_, enabled.2, rfl, .inr rfl⟩
  | own event =>
      refine .inr ⟨event, enabled.2.2, rfl, ?_⟩
      cases event <;>
        first | exact trivial | exact rfl | exact .inl rfl | cases enabled.2.1
  | handleEvent =>
      cases work : network.queue.workList with
      | nil =>
          left
          rw [NetworkEventQueue.next, NetworkEventQueue.handleEvent, work]
      | cons event rest =>
          have taken := attended.takeFirst work
          have known : event.Known network.core := taken.known event
            (taken.arrived event (.inr (List.mem_singleton_self _)))
          rcases (attended.handleEvent work).core known with
            same | ⟨p, notGenesis, bound, inserted⟩
          · exact .inl same
          · exact .inr ⟨.insertBlock p, ⟨enabled.1.2, notGenesis, bound⟩,
              inserted, trivial⟩
  | hotstuffEvent =>
      simp only [NetworkEventQueue.next, NetworkEventQueue.takeHotstuffEvent]
      cases found : network.hotstuffEventQueue[network.taken]? with
      | none => exact .inl rfl
      | some entry =>
          have member := List.mem_of_getElem? found
          refine .inr ⟨_, attended.enabled_hotstuffEvent enabled.1.2 member,
            rfl, ?_⟩
          have delivers := attended.delivers entry member
          have arrived := attended.arrived entry.1
            (.inl (.inr (.inr (List.mem_map_of_mem member))))
          obtain ⟨source, delivered⟩ := entry
          have handed : network.HandsEntry .hotstuffEvent delivered :=
            ⟨rfl, source, arrived, found, delivers⟩
          cases delivered with
          | vote => exact handed
          | proposal => exact .inr handed

end NetworkEventQueue

end Flow

end Hotstuff
