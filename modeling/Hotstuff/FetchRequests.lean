import Hotstuff.NetworkEventQueue
import Mathlib.Algebra.Order.Group.Multiset
import Mathlib.Tactic.Abel

/-!
# Requests and dependencies

The parts that the delivery of network events rests on: a block is only stored
after everything that it depends on, a request is a place for events of which
nothing gets lost, and the steps of the core keep what is known about an event.
-/

namespace Hotstuff

section Requests

variable [WireTypes]

/-! ### Requests -/

namespace BlockFetchManager

variable {manager : BlockFetchManager} {config : ReplicaConfig}
  {hash : Hash} {target : ReplicaID} {events : List NetEvent}

/-- The events that wait for a block. -/
def waiting (manager : BlockFetchManager) (hash : Hash) : List NetEvent :=
  (manager.context hash).dependentNetworkEvents

/-- The events that wait for any block. -/
def parked (manager : BlockFetchManager) : List NetEvent :=
  manager.outstandingReqs.entries.flatMap
    fun entry => entry.2.dependentNetworkEvents

theorem waiting_of_notMem (absent : hash ∉ manager.outstandingReqs) :
    manager.waiting hash = [] := by
  rw [waiting, context, AList.lookup_eq_none.mpr absent]
  rfl

theorem outstandingReqs_deliverBlock (manager : BlockFetchManager)
    (hash : Hash) : (manager.deliverBlock hash).2.outstandingReqs =
      manager.outstandingReqs.erase hash := by
  unfold deliverBlock
  cases found : manager.outstandingReqs.lookup hash with
  | some context => rfl
  | none =>
      have absent := AList.lookup_eq_none.mp found
      exact AList.ext (List.kerase_of_notMem_keys absent).symm

theorem events_deliverBlock (manager : BlockFetchManager) (hash : Hash) :
    (manager.deliverBlock hash).1 = manager.waiting hash := by
  unfold deliverBlock waiting context
  cases manager.outstandingReqs.lookup hash <;> rfl

theorem mem_deliverBlock {other : Hash} :
    other ∈ (manager.deliverBlock hash).2.outstandingReqs ↔
      other ≠ hash ∧ other ∈ manager.outstandingReqs := by
  rw [outstandingReqs_deliverBlock, AList.mem_erase]

theorem waiting_deliverBlock {other : Hash} :
    (manager.deliverBlock hash).2.waiting other =
      if other = hash then [] else manager.waiting other := by
  unfold waiting context
  rw [outstandingReqs_deliverBlock]
  split
  case isTrue same =>
    rw [same, AList.lookup_erase]
    rfl
  case isFalse different => rw [AList.lookup_erase_ne different]

/-- Taking a request apart. -/
theorem parked_deliverBlock (manager : BlockFetchManager) (hash : Hash) :
    (manager.parked : Multiset NetEvent) =
      manager.waiting hash + (manager.deliverBlock hash).2.parked := by
  rw [parked, parked, outstandingReqs_deliverBlock]
  by_cases member : hash ∈ manager.outstandingReqs
  · obtain ⟨found, before, after, -, entries, erased⟩ :=
      List.exists_of_kerase member
    have lookedUp : manager.outstandingReqs.lookup hash = some found := by
      apply AList.mem_lookup_iff.mpr
      rw [entries]
      simp
    have waits : manager.waiting hash = found.dependentNetworkEvents := by
      rw [waiting, context, lookedUp]
      rfl
    have erasedEntries : (manager.outstandingReqs.erase hash).entries =
        before ++ after := erased
    rw [waits, erasedEntries, entries]
    simp only [List.flatMap_append, List.flatMap_cons, ← Multiset.coe_add]
    abel
  · have same : (manager.outstandingReqs.erase hash).entries =
        manager.outstandingReqs.entries :=
      List.kerase_of_notMem_keys member
    rw [same, waiting_of_notMem member]
    rw [Multiset.coe_nil, zero_add]

theorem mem_addFetchRequest (valid : config.isValidReplica target = true)
    {other : Hash} :
    other ∈ (manager.addFetchRequest config hash target events).outstandingReqs
      ↔ other = hash ∨ other ∈ manager.outstandingReqs := by
  rw [addFetchRequest, if_pos valid]
  exact AList.mem_insert _

theorem waiting_addFetchRequest (valid : config.isValidReplica target = true)
    {other : Hash} :
    (manager.addFetchRequest config hash target events).waiting other =
      if other = hash then manager.waiting hash ++ events
      else manager.waiting other := by
  rw [addFetchRequest, if_pos valid]
  split
  case isTrue same =>
    subst same
    rw [waiting, context, AList.lookup_insert]
    rfl
  case isFalse different =>
    rw [waiting, context, AList.lookup_insert_ne different]
    rfl

/-- Parking adds the events to those that were parked. -/
theorem parked_addFetchRequest (valid : config.isValidReplica target = true) :
    ((manager.addFetchRequest config hash target events).parked :
      Multiset NetEvent) = manager.parked + events := by
  have inserted : (manager.addFetchRequest config hash target events).parked =
      (manager.waiting hash ++ events) ++
        (manager.deliverBlock hash).2.parked := by
    rw [addFetchRequest, if_pos valid, parked, parked,
      outstandingReqs_deliverBlock]
    rfl
  rw [inserted, manager.parked_deliverBlock hash, ← Multiset.coe_add,
    ← Multiset.coe_add]
  abel

theorem exists_waiting_of_mem_parked {event : NetEvent}
    (member : event ∈ manager.parked) :
    ∃ hash ∈ manager.outstandingReqs, event ∈ manager.waiting hash := by
  obtain ⟨⟨hash, context⟩, entry, inside⟩ := List.mem_flatMap.mp member
  have found : manager.outstandingReqs.lookup hash = some context :=
    AList.mem_lookup_iff.mpr entry
  refine ⟨hash, AList.lookup_isSome.mp (by rw [found]; rfl), ?_⟩
  rw [waiting, BlockFetchManager.context, found]
  exact inside

theorem mem_parked_of_waiting {event : NetEvent}
    (waits : event ∈ manager.waiting hash) : event ∈ manager.parked := by
  have split := manager.parked_deliverBlock hash
  apply Multiset.mem_coe.mp
  rw [split]
  exact Multiset.mem_add.mpr (.inl waits)

end BlockFetchManager

/-! ### Dependencies -/

variable [Externals]

/-- The header with the first hash names the second hash. -/
def Names (child dependency : Hash) : Prop :=
  ∃ header : HotstuffBlockHeader, hashHeader header = child ∧
    (dependency = header.parentHash ∨ dependency = header.qc.justify)

/-- The block and all blocks that have to be stored before it. -/
def DependsOn : Hash → Hash → Prop := Relation.ReflTransGen Names

namespace BlockStore

variable {store : BlockStore}

theorem WellFormed.names_parent (tree : store.WellFormed) {p : BlockPtr}
    (notGenesis : p ≠ 0) (bound : p < store.heap.length) :
    Names (store.hash p) (store.block p).getParentHash :=
  ⟨(store.block p).wireBlock.header, (tree.hashed p notGenesis bound).1.symm,
    .inl rfl⟩

theorem WellFormed.names_justify (tree : store.WellFormed) {p : BlockPtr}
    (notGenesis : p ≠ 0) (bound : p < store.heap.length) :
    Names (store.hash p) (store.block p).getJustifyHash :=
  ⟨(store.block p).wireBlock.header, (tree.hashed p notGenesis bound).1.symm,
    .inr (tree.getJustifyHash_eq notGenesis bound)⟩

/-- The hashes that a block names. -/
def dependencies (store : BlockStore) (p : BlockPtr) : List Hash :=
  [(store.block p).getParentHash, (store.block p).getJustifyHash]

/-- Those that are not in the block cache. -/
def missing (store : BlockStore) (p : BlockPtr) : List Hash :=
  (store.dependencies p).filter fun hash => (store.getBlock hash).isNone

omit [Externals] in
theorem mem_missing {p : BlockPtr} {hash : Hash} :
    hash ∈ store.missing p ↔
      hash ∈ store.dependencies p ∧ store.getBlock hash = none := by
  rw [missing, List.mem_filter, Option.isNone_iff_eq_none]

theorem WellFormed.names_dependency (tree : store.WellFormed) {p : BlockPtr}
    (notGenesis : p ≠ 0) (bound : p < store.heap.length) {hash : Hash}
    (member : hash ∈ store.dependencies p) : Names (store.hash p) hash := by
  rcases List.mem_pair.mp member with rfl | rfl
  · exact tree.names_parent notGenesis bound
  · exact tree.names_justify notGenesis bound

/-- Without collisions nothing else is named. -/
theorem WellFormed.mem_dependencies (collisionFree : CollisionFree)
    (tree : store.WellFormed) {p : BlockPtr} (notGenesis : p ≠ 0)
    (bound : p < store.heap.length) {hash : Hash}
    (names : Names (store.hash p) hash) : hash ∈ store.dependencies p := by
  obtain ⟨header, hashEq, named⟩ := names
  obtain rfl : header = (store.block p).wireBlock.header := by
    apply collisionFree.injective
    rw [hashEq, (tree.hashed p notGenesis bound).1]
  rcases named with rfl | rfl
  · exact List.mem_cons_self
  · rw [← tree.getJustifyHash_eq notGenesis bound]
    exact List.mem_cons_of_mem _ List.mem_cons_self

theorem WellFormed.stored_of_names (collisionFree : CollisionFree)
    (tree : store.WellFormed) {child dependency : Hash}
    (names : Names child dependency)
    (stored : (store.getBlock child).isSome = true) :
    (store.getBlock dependency).isSome = true := by
  obtain ⟨header, hashEq, named⟩ := names
  obtain ⟨p, found⟩ := Option.isSome_iff_exists.mp stored
  obtain ⟨-, placed, hashEq'⟩ := tree.stored_of_getBlock found
  rcases placed with rfl | linked
  · -- genesis has no header
    rw [tree.genesis_hash, ← hashEq] at hashEq'
    exact (collisionFree.ne_zero header hashEq'.symm).elim
  · have notGenesis := tree.ne_zero_of_linked linked
    have bound := lt_of_linked linked
    obtain rfl : header = (store.block p).wireBlock.header := by
      apply collisionFree.injective
      rw [hashEq, ← hashEq', (tree.hashed p notGenesis bound).1]
    obtain ⟨parent, -, proper⟩ := tree.parent_of_linked linked
    rcases named with rfl | rfl
    · exact Option.isSome_iff_exists.mpr ⟨parent, proper.parentStored⟩
    · obtain ⟨justify, -, justifyFound⟩ := proper.justifyStored
      rw [← tree.getJustifyHash_eq notGenesis bound, justifyFound]
      rfl

/-- With a block everything that it depends on is stored. -/
theorem WellFormed.stored_of_dependsOn (collisionFree : CollisionFree)
    (tree : store.WellFormed) {child dependency : Hash}
    (depends : DependsOn child dependency)
    (stored : (store.getBlock child).isSome = true) :
    (store.getBlock dependency).isSome = true := by
  induction depends with
  | refl => exact stored
  | tail _ names ih => exact tree.stored_of_names collisionFree names ih

end BlockStore

/-! ### What a step of the core keeps -/

namespace HotstuffCore

variable {core after : HotstuffCore}

/-- The configuration stays, and the block tree only grows. -/
structure Grows (core after : HotstuffCore) : Prop where
  config : after.config = core.config
  tree : after.store.WellFormed
  longer : core.store.Extends after.store

/-- The replica has the block with the hash in its store. -/
def Stores (core : HotstuffCore) (hash : Hash) : Prop :=
  (core.store.getBlock hash).isSome = true

theorem Grows.stores (grows : core.Grows after) {hash : Hash}
    (stores : core.Stores hash) : after.Stores hash := by
  obtain ⟨p, found⟩ := Option.isSome_iff_exists.mp stores
  rw [Stores, grows.longer.cache hash p found]
  rfl

theorem config_proposeBody (core : HotstuffCore) (nonemptyProposal : Bool)
    (body : Body) :
    (core.proposeBody nonemptyProposal body).config = core.config := by
  rcases core.proposeBody_cases nonemptyProposal body with
    ⟨-, result⟩ | ⟨-, result⟩ <;> rw [result]

theorem config_step (tree : core.store.WellFormed) (event : Event) :
    (core.step event).config = core.config := by
  cases event with
  | receiveBlock | insertBlock | garbageCollect => rfl
  | vote cert p voter => exact (internal_onReceiveVote core cert p voter).config
  | selfVote p => exact (internal_onReceiveVote core _ p core.selfId).config
  | proposal p proposer =>
      rcases onReceiveProposal_cases tree p proposer with
        ⟨-, result⟩ | ⟨-, result⟩ <;> rw [HotstuffCore.step, result]
      · exact (internal_update (core.castVote p proposer) p).config
      · exact (internal_update core p).config
  | doPropose body | doEmptyPropose body =>
      exact core.config_proposeBody _ body

theorem grows_of_enabled (tree : core.store.WellFormed) {event : Event}
    (enabled : core.Enabled event) : Grows core (core.step event) :=
  ⟨config_step tree event, (grows_step tree enabled).1,
    (grows_step tree enabled).2⟩

theorem getBlock_mintedStore (core : HotstuffCore) (body : Body)
    {hash : Hash} (other : hash ≠ (core.minted body).getHash) :
    (core.mintedStore body).1.getBlock hash = core.store.getBlock hash := by
  have newHash : (core.store.alloc (core.minted body)).1.hash
      core.store.heap.length = (core.minted body).getHash := by
    rw [BlockStore.hash, BlockStore.block_alloc, if_pos rfl]
  rw [mintedStore]
  rcases BlockStore.insertBlock_cases (core.store.alloc (core.minted body)).1
      core.store.heap.length with
    ⟨parent, justify, -, -, result, -⟩ | ⟨-, result, -⟩
  · rw [result, BlockStore.getBlock_addLinked, newHash,
      if_neg fun same => other same.1]
    rfl
  · rw [result]
    rfl

/-- Only insertions and own proposals bring blocks into the store. -/
theorem getBlock_step (tree : core.store.WellFormed) {event : Event}
    {hash : Hash} (notInserted : ∀ p, event ≠ .insertBlock p)
    (notMinted : ∀ body, event = .doPropose body ∨ event = .doEmptyPropose body →
      hash ≠ (core.minted body).getHash) :
    (core.step event).store.getBlock hash = core.store.getBlock hash := by
  cases event with
  | receiveBlock => rfl
  | insertBlock p => exact (notInserted p rfl).elim
  | vote cert p voter =>
      exact (sameTree_onReceiveVote core cert p voter).getBlock hash
  | selfVote p => exact (sameTree_onReceiveVote core _ p core.selfId).getBlock hash
  | proposal p proposer =>
      exact (sameTree_onReceiveProposal tree p proposer).getBlock hash
  | doPropose body =>
      rw [HotstuffCore.step, doPropose, store_proposeBody]
      exact core.getBlock_mintedStore body (notMinted body (.inl rfl))
  | doEmptyPropose body =>
      rw [HotstuffCore.step, doEmptyPropose, store_proposeBody]
      exact core.getBlock_mintedStore body (notMinted body (.inr rfl))
  | garbageCollect => exact (BlockStore.sameTree_runGc core.store).getBlock hash

end HotstuffCore

/-! ### What is known about events -/

/-- The sender is configured, and the block object of the message exists. -/
def NetEvent.Known (event : NetEvent) (core : HotstuffCore) : Prop :=
  match event.netEvent with
  | .vote cert voter =>
      (core.config.getInfo voter).toOption.any (cert.validate ·) = true
  | .proposal p source | .blockReceive p source =>
      p ≠ 0 ∧ p < core.store.heap.length ∧
        core.config.isValidReplica source = true

/-- The event in the hotstuff queue is the network event, with its block in the
tree. -/
def HotstuffEvent.Delivers (store : BlockStore) (source : NetEvent) :
    HotstuffEvent → Prop
  | .vote cert p rid =>
      source.netEvent = .vote cert rid ∧ store.getBlock cert.hash = some p
  | .proposal p rid =>
      source.netEvent = .proposal p rid ∧ (store.block p).Linked

section Growth

variable {core after : HotstuffCore} {event : NetEvent}

theorem NetEvent.Known.grow (known : event.Known core)
    (grows : core.Grows after) : event.Known after := by
  obtain ⟨netEvent, arrival⟩ := event
  unfold NetEvent.Known at known ⊢
  rw [grows.config]
  cases netEvent with
  | vote => exact known
  | proposal | blockReceive =>
      exact ⟨known.1, known.2.1.trans_le grows.longer.length, known.2.2⟩

theorem NetEvent.Known.blockHash_eq (known : event.Known core)
    (grows : core.Grows after) :
    event.blockHash after.store = event.blockHash core.store := by
  obtain ⟨netEvent, arrival⟩ := event
  cases netEvent with
  | vote => rfl
  | proposal | blockReceive => exact (grows.longer.identity _ known.2.1).1

theorem HotstuffEvent.Delivers.grow {delivered : HotstuffEvent}
    (delivers : delivered.Delivers core.store event)
    (grows : core.Grows after) : delivered.Delivers after.store event := by
  cases delivered with
  | vote cert p rid =>
      exact ⟨delivers.1, grows.longer.cache _ _ delivers.2⟩
  | proposal p rid =>
      have same := grows.longer.links p (.inr delivers.2)
      exact ⟨delivers.1, (BlockStore.linked_of_links same).mpr delivers.2⟩

end Growth

end Requests

end Hotstuff
