import Hotstuff.Cluster
import Hotstuff.ParkedEvents

/-!
# Clusters at rest

When no thread of a cluster has anything left to do, nothing has been left
behind: all replicas have stored the same blocks, every proposal has reached the
core of every replica, and every vote of a correct replica the core of the
replica that it was for.  Only votes in the name of faulty replicas may still
wait for blocks.

An event waits for a block that some replica has been asked for.  That replica
has the block, since it has voted on it, proposed it, or sent a block that
depends on it; and it answers with the block, unless the body of the block is
flushed from memory.  A server omits flushed blocks without a word, and the
request is never repeated.  So the result is about clusters that do not collect
garbage.
-/

namespace Hotstuff

open Function (update)

section Quiescence

variable [WireTypes] [Externals]

/-! ### Bodies stay in memory -/

namespace HotstuffCore

variable {core : HotstuffCore}

theorem stores_linked (tree : core.store.WellFormed) {p : BlockPtr}
    (linked : (core.block p).Linked) :
    core.Stores (hashHeader (core.block p).wireBlock.header) := by
  obtain ⟨hashEq, -⟩ := tree.hashed p (tree.ne_zero_of_linked linked)
    (BlockStore.WellFormed.lt_of_linked linked)
  have stored := tree.linkedCached p linked
  rw [hashEq] at stored
  exact stored

/-- Every block but genesis has its body. -/
def Unflushed (core : HotstuffCore) : Prop :=
  ∀ p, p ≠ 0 → p < core.store.heap.length →
    (inMemory (core.block p)).isSome = true

theorem length_step (tree : core.store.WellFormed) (event : Event) :
    (core.step event).store.heap.length =
      core.store.heap.length + (core.newBlocks event).length := by
  have minted (nonemptyProposal : Bool) (body : Body) :
      (core.proposeBody nonemptyProposal body).store.heap.length =
        core.store.heap.length + 1 := by
    rw [store_proposeBody, mintedStore, BlockStore.length_insertBlock]
    exact List.length_append
  cases event with
  | receiveBlock => exact List.length_append
  | insertBlock p => exact BlockStore.length_insertBlock core.store p
  | vote cert p voter => exact (sameTree_onReceiveVote core cert p voter).length
  | selfVote p => exact (sameTree_onReceiveVote core _ p core.selfId).length
  | proposal p proposer =>
      exact (sameTree_onReceiveProposal tree p proposer).length
  | doPropose body => exact minted _ body
  | doEmptyPropose body => exact minted _ body
  | garbageCollect => exact (BlockStore.sameTree_runGc core.store).length

theorem Unflushed.exists_body (unflushed : core.Unflushed)
    (tree : core.store.WellFormed) {hash : Hash} (stores : core.Stores hash)
    (notGenesis : hash ≠ zeroHash) :
    ∃ p wireBlock, core.store.getBlock hash = some p ∧
      inMemory (core.block p) = some wireBlock ∧
      hashHeader wireBlock.header = hash := by
  obtain ⟨p, found⟩ := Option.isSome_iff_exists.mp stores
  obtain ⟨hashEq, placed⟩ := tree.cacheSound hash p found
  have notZero : p ≠ 0 := by
    rintro rfl
    exact notGenesis (hashEq.symm.trans tree.genesis_hash)
  have bound := BlockStore.WellFormed.lt_of_linked
    (placed.resolve_left notZero)
  obtain ⟨wireBlock, held⟩ :=
    Option.isSome_iff_exists.mp (unflushed p notZero bound)
  refine ⟨p, wireBlock, found, held, ?_⟩
  have whole : (core.block p).wireBlock = wireBlock := by
    unfold inMemory at held
    split at held
    · cases held
    · exact Option.some.inj held
  rw [← whole, ← hashEq]
  exact (tree.hashed p notZero bound).1.symm

theorem Unflushed.step (unflushed : core.Unflushed)
    (tree : core.store.WellFormed) {event : Event}
    (notCollecting : event ≠ .garbageCollect) :
    (core.step event).Unflushed := by
  intro p notGenesis bound
  rw [length_step tree] at bound
  rw [inMemory_step_eq tree notCollecting]
  by_cases old : p < core.store.heap.length
  · rw [if_neg old.ne]
    exact unflushed p notGenesis old
  · have single : (core.newBlocks event).length ≤ 1 := by
      cases event <;> simp [newBlocks, newProposals]
    have here : p = core.store.heap.length := by omega
    rw [if_pos here]
    cases new : core.newBlocks event with
    | nil =>
        rw [new] at bound
        exact (old bound).elim
    | cons => rfl

end HotstuffCore

/-! ### Requests on their way -/

/-- The worker has been asked for the hash, or has got the block. -/
def BlockFetchWorker.Requested (worker : BlockFetchWorker) (hash : Hash) :
    Prop :=
  hash ∈ worker.reqs ∨ hash ∈ worker.req ∨
    ∃ wireBlock ∈ worker.responses, hashHeader wireBlock.header = hash

/-- The event is not a vote in the name of a faulty replica. -/
def Deployment.Correct (deployment : Deployment) (event : NetEvent) : Prop :=
  ∀ cert voter, event.netEvent = .vote cert voter → voter ∉ deployment.faulty

/-- The block is in the queue, or requested from a replica that has it. -/
def Process.Expects (deployment : Deployment) (state : SystemState)
    (process : Process) (hash : Hash) : Prop :=
  process.network.Arriving hash ∨ ∃ peer ∈ deployment.config.ids,
    (state peer).Stores hash ∧ (process.queues peer).worker.Requested hash

/-- What the event asks its source for is stored, requested, in the hands of a
worker, or brought by a later event. -/
def Process.Pursues (process : Process) (inHand : List (ReplicaID × Hash))
    (event : NetEvent) (source : ReplicaID) (hash : Hash) : Prop :=
  process.network.core.Stores hash ∨
    (process.queues source).worker.Requested hash ∨ (source, hash) ∈ inHand ∨
    ∃ later ∈ process.network.received, event.arrival < later.arrival ∧
      ∃ p, later.Brings p source ∧ process.network.core.store.hash p = hash

/-- Every replica stores at least what it has stored before. -/
def StoresMore (state after : SystemState) : Prop :=
  ∀ rid hash, (state rid).Stores hash → (after rid).Stores hash

namespace Process

variable {deployment : Deployment} {state after : SystemState}
  {rid : ReplicaID} {process : Process}

/-- The senders of blocks have these blocks.  The replica expects the blocks for
which events wait, apart from those that a worker has in hand, and pursues what
the events ask for. -/
structure Serviced (deployment : Deployment) (state : SystemState)
    (process : Process) (inHand : List (ReplicaID × Hash)) : Prop where
  unmarked : process.network.blockFetchManager.Unmarked
  unflushed : process.network.core.Unflushed
  senders : ∀ event ∈ process.network.received, ∀ p source,
    event.Brings p source →
      (state source).Stores (process.network.core.store.hash p)
  answers : ∀ peer, ∀ wireBlock ∈ (process.queues peer).worker.responses,
    (state peer).Stores (hashHeader wireBlock.header)
  missing : ∀ hash, ∀ event ∈ process.network.blockFetchManager.waiting hash,
    hash ≠ zeroHash
  expected : ∀ hash, ∀ event ∈ process.network.blockFetchManager.waiting hash,
    deployment.Correct event →
      process.Expects deployment state hash ∨ hash ∈ inHand.map Prod.snd
  pursued : ∀ event ∈ process.network.received, deployment.Correct event →
    ∀ source hash, event.Asks process.network.core.store source hash →
      event ∈ process.network.queue.pending ∨
        process.Pursues inHand event source hash

theorem Expects.later {hash : Hash}
    (expects : process.Expects deployment state hash)
    (more : StoresMore state after) :
    process.Expects deployment after hash := by
  rcases expects with arriving | ⟨peer, member, stores, requested⟩
  · exact .inl arriving
  · exact .inr ⟨peer, member, more peer hash stores, requested⟩

theorem Serviced.later {inHand : List (ReplicaID × Hash)}
    (serviced : process.Serviced deployment state inHand)
    (more : StoresMore state after) :
    process.Serviced deployment after inHand :=
  { serviced with
    senders := fun event member p source brings =>
      more source _ (serviced.senders event member p source brings)
    answers := fun peer wireBlock member =>
      more peer _ (serviced.answers peer wireBlock member)
    expected := fun hash event waiting correct =>
      (serviced.expected hash event waiting correct).imp_left
        (Expects.later · more) }

theorem serviced_boot (deployment : Deployment) (state : SystemState)
    (rid : ReplicaID) (secretKey : SecretKey) :
    (boot rid deployment.config secretKey).Serviced deployment state [] where
  unmarked := BlockFetchManager.unmarked_empty
  unflushed := by
    intro p notGenesis bound
    exact (notGenesis (Nat.lt_one_iff.mp bound)).elim
  senders := nofun
  answers := nofun
  missing := nofun
  expected := nofun
  pursued := nofun

/-- What is known about the other replicas when a process has taken a step. -/
structure Surrounded (deployment : Deployment) (state : SystemState) :
    Prop where
  trees : ∀ rid, (state rid).store.WellFormed
  voted : ∀ rid hash, hash ∈ (state rid).votedHashes → (state rid).Stores hash

theorem requested_addRequests {run : WorkerRun} {hash : Hash}
    (requested : run.worker.Requested hash) (hashes : List Hash) :
    (run.addRequests hashes).worker.Requested hash := by
  rw [WorkerRun.worker_addRequests]
  rcases requested with waiting | sent
  · exact .inl (Finset.mem_union_left _ waiting)
  · exact .inr sent

section Act

variable {action : NetworkEventQueue.Action}
  {inHand : List (ReplicaID × Hash)}

/-- A replica that owes a block has it. -/
theorem Serviced.stores_of_owes (collisionFree : CollisionFree)
    (serviced : process.Serviced deployment state inHand)
    (more : StoresMore state after) (surrounded : Surrounded deployment after)
    {event : NetEvent} {source : ReplicaID} {hash : Hash}
    (authentic : ∀ cert voter, event.netEvent = .vote cert voter →
      deployment.Authentic after (.vote cert voter))
    (correct : deployment.Correct event)
    (owes : process.network.Owes event source hash) :
    (after source).Stores hash := by
  cases owes with
  | voted isVote hashEq =>
      subst hashEq
      exact surrounded.voted source _
        (authentic _ source isVote (correct _ source isVote))
  | sent arrived brings names =>
      exact (surrounded.trees source).stored_of_names collisionFree names
        (more source _ (serviced.senders _ arrived _ source brings))

/-- The sender of a block that arrives has the block. -/
theorem stores_of_arrival {event : NetEvent} {p : BlockPtr}
    {source : ReplicaID} (arrival : event ∈ process.network.arrivals action)
    (brings : event.Brings p source)
    (supplied : ∀ wireBlock source, action = .propose wireBlock source ∨
      action = .fetched wireBlock source →
        (after source).Stores (hashHeader wireBlock.header)) :
    (after source).Stores
      ((process.network.next action).core.store.hash p) := by
  cases action with
  | vote cert voter =>
      obtain rfl := List.mem_singleton.mp arrival
      rcases brings with brings | brings <;> cases brings
  | propose wireBlock proposer =>
      obtain rfl := List.mem_singleton.mp arrival
      rcases brings with brings | brings <;> cases brings
      have hashEq := (process.network.block_receiveBlock wireBlock source).2
      rw [show (process.network.next (.propose wireBlock
        source)).core.store.hash _ = _ from hashEq]
      exact supplied wireBlock source (.inl rfl)
  | fetched wireBlock sender =>
      obtain rfl := List.mem_singleton.mp arrival
      rcases brings with brings | brings <;> cases brings
      have hashEq := (process.network.block_receiveBlock wireBlock source).2
      rw [show (process.network.next (.fetched wireBlock
        source)).core.store.hash _ = _ from hashEq]
      exact supplied wireBlock source (.inr rfl)
  | _ => cases arrival

/-- What is requested in a step reaches a worker. -/
theorem requested_act {requests : List (ReplicaID × Hash)}
    (fetchesEq : (process.network.next action).blockFetchManager.fetches =
      process.network.blockFetchManager.fetches ++ requests)
    {source : ReplicaID} {hash : Hash}
    (requested : (source, hash) ∈ requests) :
    ((process.act action).queues source).worker.Requested hash := by
  left
  change hash ∈ ((process.queues source).addRequests _).worker.reqs
  rw [WorkerRun.worker_addRequests, fetchesEq, List.drop_left]
  apply Finset.mem_union_right
  rw [List.mem_toFinset]
  exact List.mem_filterMap.mpr ⟨_, requested, if_pos rfl⟩

section Parts

variable (serviced : process.Serviced deployment state inHand)
  (sound : process.Sound deployment state rid)
  (soundAfter : (process.act action).Sound deployment after rid)
  (enabled : process.network.Enabled action) (more : StoresMore state after)
  (passedOn : ∀ source hash, (source, hash) ∈ inHand →
    ∃ event ∈ process.network.arrivals action, ∃ p, event.Brings p source ∧
      (process.network.next action).core.store.hash p = hash)

include serviced sound enabled

include more in
theorem Serviced.senders_act
    (supplied : ∀ wireBlock source, action = .propose wireBlock source ∨
      action = .fetched wireBlock source →
        (after source).Stores (hashHeader wireBlock.header))
    {event : NetEvent} (member : event ∈ (process.act action).network.received)
    {p : BlockPtr} {source : ReplicaID} (brings : event.Brings p source) :
    (after source).Stores
      ((process.act action).network.core.store.hash p) := by
  change event ∈ (process.network.next action).received at member
  rw [sound.attended.received_next] at member
  rcases List.mem_append.mp member with old | new
  · obtain ⟨-, bound⟩ := NetworkEventQueue.NetEvent.Brings.known brings
      (sound.attended.known event old)
    have sameHash : (process.network.next action).core.store.hash p =
        process.network.core.store.hash p :=
      ((sound.attended.grows_next enabled).longer.identity p bound).1
    change (after source).Stores
      ((process.network.next action).core.store.hash p)
    rw [sameHash]
    exact more source _ (serviced.senders event old p source brings)
  · exact stores_of_arrival new brings supplied

include soundAfter more passedOn in
/-- An event that waits after the step waits for a block that comes, or that is
owed and has been requested in the step. -/
theorem Serviced.expects_act (collisionFree : CollisionFree)
    (sameConfig : process.network.core.config = deployment.config)
    (surrounded : Surrounded deployment after) {event : NetEvent} {hash : Hash}
    (waiting : event ∈
      (process.act action).network.blockFetchManager.waiting hash)
    (correct : deployment.Correct event) :
    (process.act action).Expects deployment after hash := by
  have attended := sound.attended
  obtain ⟨-, requests, fetchesEq, waits⟩ :=
    attended.waits_next serviced.unmarked enabled
  rcases waits hash event waiting with
    ⟨old, onItsWay⟩ | ⟨source, requested, -, owes⟩
  · rcases serviced.expected hash event old correct with
      (arriving | ⟨peer, member, stores, asked⟩) | held
    · exact .inl (onItsWay arriving)
    · exact .inr ⟨peer, member, more peer hash stores,
        requested_addRequests asked _⟩
    · obtain ⟨⟨source, held⟩, inside, rfl⟩ := List.mem_map.mp held
      obtain ⟨event, arrives, p, brings, hashEq⟩ := passedOn _ _ inside
      exact .inl ⟨event, NetworkEventQueue.pending_arrivals arrives, p, source,
        brings, hashEq⟩
  have arrived : event ∈ (process.network.next action).received := by
    refine soundAfter.attended.arrived event (.inl (.inr (.inl ?_)))
    exact BlockFetchManager.mem_parked_of_waiting waiting
  have valid : process.network.core.config.isValidReplica source = true := by
    cases owes with
    | voted isVote hashEq =>
        have known := soundAfter.attended.known event arrived
        rw [NetEvent.Known, isVote] at known
        rw [← (attended.grows_next enabled).config]
        exact NetworkEventQueue.isValidReplica_of_getInfo known
    | sent bringing brings names =>
        exact NetworkEventQueue.NetEvent.Brings.valid brings
          (attended.known _ bringing)
  rw [sameConfig] at valid
  exact .inr ⟨source, ReplicaConfig.isValidReplica_iff.mp valid,
    serviced.stores_of_owes collisionFree more surrounded
      (soundAfter.votes event arrived) correct owes,
    requested_act fetchesEq requested⟩

include passedOn in
/-- What an event asks for is pursued from its handling on. -/
theorem Serviced.pursues_act (collisionFree : CollisionFree)
    {event : NetEvent} (arrived : event ∈ (process.act action).network.received)
    (correct : deployment.Correct event) {source : ReplicaID} {hash : Hash}
    (asks : event.Asks (process.act action).network.core.store source hash) :
    event ∈ (process.act action).network.queue.pending ∨
      (process.act action).Pursues [] event source hash := by
  have attended := sound.attended
  have grows := attended.grows_next enabled
  obtain ⟨-, requests, fetchesEq, -⟩ :=
    attended.waits_next serviced.unmarked enabled
  rcases attended.asked_next collisionFree serviced.unmarked enabled fetchesEq
      arrived asks with
    pending | stores | requested | ⟨old, handled, asks⟩
  · exact .inl pending
  · exact .inr (.inl stores)
  · exact .inr (.inr (.inl (requested_act fetchesEq requested)))
  right
  rcases (serviced.pursued event old correct source hash asks).resolve_left
    handled with stores | requested | held |
      ⟨later, arrived, after, p, brings, hashEq⟩
  · exact .inl (grows.stores stores)
  · exact .inr (.inl (requested_addRequests requested _))
  · obtain ⟨later, arrives, p, brings, hashEq⟩ := passedOn source hash held
    refine .inr (.inr (.inr ⟨later, ?_, ?_, p, brings, hashEq⟩))
    · change later ∈ (process.network.next action).received
      rw [attended.received_next]
      exact List.mem_append_right _ arrives
    · rw [NetworkEventQueue.arrival_arrivals arrives]
      exact attended.arrival_lt old
  · obtain ⟨-, bound⟩ := NetworkEventQueue.NetEvent.Brings.known brings
      (attended.known later arrived)
    refine .inr (.inr (.inr ⟨later, ?_, after, p, brings, ?_⟩))
    · change later ∈ (process.network.next action).received
      rw [attended.received_next]
      exact List.mem_append_left _ arrived
    · rw [← hashEq]
      exact (grows.longer.identity p bound).1

include soundAfter more passedOn in
theorem Serviced.act (collisionFree : CollisionFree)
    (sameConfig : process.network.core.config = deployment.config)
    (notCollecting : action ≠ .own .garbageCollect)
    (surrounded : Surrounded deployment after)
    (supplied : ∀ wireBlock source, action = .propose wireBlock source ∨
      action = .fetched wireBlock source →
        (after source).Stores (hashHeader wireBlock.header)) :
    (process.act action).Serviced deployment after [] := by
  have attended := sound.attended
  obtain ⟨unmarked, requests, -, waits⟩ :=
    attended.waits_next serviced.unmarked enabled
  constructor
  case unmarked => exact unmarked
  case unflushed =>
    change (process.network.next action).core.Unflushed
    rcases attended.core_next enabled with same | ⟨event, -, stepEq, hands⟩
    · rw [same]
      exact serviced.unflushed
    · rw [stepEq]
      apply serviced.unflushed.step attended.tree
      rintro rfl
      exact notCollecting hands
  case senders =>
    intro event member p source brings
    exact serviced.senders_act sound enabled more supplied member brings
  case answers =>
    intro peer wireBlock member
    change wireBlock ∈ ((process.queues peer).addRequests _).worker.responses
      at member
    rw [WorkerRun.worker_addRequests] at member
    exact more peer _ (serviced.answers peer wireBlock member)
  case missing =>
    intro hash event waiting
    rcases waits hash event waiting with ⟨old, -⟩ | ⟨source, -, absent, -⟩
    · exact serviced.missing hash event old
    · rintro rfl
      cases attended.tree.cacheGenesis.symm.trans absent
  case expected =>
    intro hash event waiting correct
    exact .inl (serviced.expects_act sound soundAfter enabled more passedOn
      collisionFree sameConfig surrounded waiting correct)
  case pursued =>
    intro event arrived correct source hash asks
    exact serviced.pursues_act sound enabled passedOn collisionFree arrived
      correct asks

end Parts

end Act

section Workers

variable {run : WorkerRun} {hash : Hash}

/-- A call is made with a connection, so an answer or a failure takes the
request out of the call. -/
theorem requested_call (sound : run.Sound)
    (live : run.worker.rpc.doneFlag = false)
    (calling : run.worker.rpc.place = .calling)
    (requested : run.worker.Requested hash) {outcome : CallOutcome}
    {responses : List HotstuffBlockWire}
    (answered : hash ∈ run.worker.req →
      ∃ wireBlock ∈ responses, hashHeader wireBlock.header = hash) :
    (run.worker.call outcome responses).Requested hash := by
  have connected := sound.rpc.connected calling live
  have nothingLeft := sound.responses_of_calling calling
  have failed : run.worker.fail.Requested hash := by
    rcases requested with waiting | inCall | ⟨wireBlock, handed, -⟩
    · exact .inl (Finset.mem_union_left _ waiting)
    · exact .inl (Finset.mem_union_right _ (List.mem_toFinset.mpr inCall))
    · rw [nothingLeft] at handed
      cases handed
  unfold BlockFetchWorker.call
  rw [if_pos connected]
  cases outcome with
  | answerLost => exact failed
  | notDelivered => exact failed
  | answered =>
      rcases requested with waiting | inCall | ⟨wireBlock, handed, -⟩
      · exact .inl waiting
      · exact .inr (.inr (answered inCall))
      · rw [nothingLeft] at handed
        cases handed

/-- A request stays with the worker until its block is handed on. -/
theorem requested_next (sound : run.Sound)
    (live : run.worker.rpc.doneFlag = false) {action : BlockFetchWorker.Action}
    (enabled : run.worker.Enabled action)
    (requested : run.worker.Requested hash)
    (answered : ∀ outcome responses, action = .call outcome responses →
      hash ∈ run.worker.req →
        ∃ wireBlock ∈ responses, hashHeader wireBlock.header = hash) :
    (run.worker.next action).Requested hash ∨
      action = .handOn ∧ ∃ wireBlock,
        run.worker.responses.head? = some wireBlock ∧
          hashHeader wireBlock.header = hash := by
  cases action with
  | addRequest request =>
      exact .inl (requested.imp_left Finset.mem_insert_of_mem)
  | stop | enter | tryOpen => exact .inl requested
  | call outcome responses =>
      exact .inl (requested_call sound live enabled requested
        (answered outcome responses rfl))
  | wake extracted =>
      obtain ⟨waiting, handed, -, -, enumerates⟩ := enabled
      left
      unfold BlockFetchWorker.next BlockFetchWorker.wake
      dsimp only
      rw [live]
      rcases requested with asked | inCall | ⟨wireBlock, inside, -⟩
      · rw [← enumerates, List.mem_toFinset] at asked
        exact .inr (.inl asked)
      · rw [sound.waiting waiting] at inCall
        cases inCall
      · rw [handed] at inside
        cases inside
  | handOn =>
      rcases requested with asked | inCall | ⟨wireBlock, inside, hashEq⟩
      · exact .inl (.inl asked)
      · exact .inl (.inr (.inl inCall))
      · cases responses : run.worker.responses with
        | nil =>
            rw [responses] at inside
            cases inside
        | cons first rest =>
            rw [responses] at inside
            rcases List.mem_cons.mp inside with rfl | later
            · exact .inr ⟨rfl, _, rfl, hashEq⟩
            · refine .inl (.inr (.inr ⟨wireBlock, ?_, hashEq⟩))
              change wireBlock ∈ run.worker.responses.tail
              rw [responses]
              exact later

end Workers

/-- A request or an answer moves on.  The peer answers with all blocks that it
has, and the next one may be in hand. -/
theorem Serviced.stepWorker (collisionFree : CollisionFree)
    (serviced : process.Serviced deployment state [])
    (sound : process.Sound deployment state rid)
    (surrounded : Surrounded deployment state) {peer : ReplicaID}
    {action : BlockFetchWorker.Action}
    (enabled : (process.queues peer).worker.Enabled action)
    (answered : ∀ outcome responses, action = .call outcome responses →
      (∀ wireBlock ∈ responses,
        (state peer).Stores (hashHeader wireBlock.header)) ∧
      ∀ hash ∈ (process.queues peer).worker.req, hash ≠ zeroHash →
        (state peer).Stores hash →
          ∃ wireBlock ∈ responses, hashHeader wireBlock.header = hash) :
    (process.stepWorker peer action).Serviced deployment state
      ((process.handedOn peer action).toList.map
        fun wireBlock => (peer, hashHeader wireBlock.header)) := by
  have requestedStill {source : ReplicaID} {hash : Hash}
      (requested : (process.queues source).worker.Requested hash)
      (notGenesis : hash ≠ zeroHash) (stores : (state source).Stores hash) :
      ((process.stepWorker peer action).queues source).worker.Requested hash ∨
        (source, hash) ∈ (process.handedOn peer action).toList.map
          fun wireBlock => (peer, hashHeader wireBlock.header) := by
    by_cases same : source = peer
    · subst same
      obtain ⟨worker, live⟩ := sound.workers source
      rcases requested_next worker live enabled requested
          (fun outcome responses isCall inCall =>
            (answered outcome responses isCall).2 hash inCall notGenesis stores)
        with still | ⟨rfl, wireBlock, first, hashEq⟩
      · left
        change (update process.queues source _ source).worker.Requested hash
        rw [Function.update_self, WorkerRun.worker_next]
        exact still
      · right
        rw [Process.handedOn, first]
        exact List.mem_singleton.mpr (congrArg (Prod.mk source) hashEq.symm)
    · left
      change (update process.queues peer _ source).worker.Requested hash
      rw [Function.update_of_ne same]
      exact requested
  refine { serviced with answers := ?_, expected := ?_, pursued := ?_ }
  · intro other wireBlock member
    change wireBlock ∈ (update process.queues peer _ other).worker.responses
      at member
    by_cases same : other = peer
    · subst same
      rw [Function.update_self, WorkerRun.worker_next] at member
      rcases BlockFetchWorker.mem_responses_next member with
        old | ⟨outcome, responses, rfl, inside⟩
      · exact serviced.answers other wireBlock old
      · exact (answered outcome responses rfl).1 wireBlock inside
    · rw [Function.update_of_ne same] at member
      exact serviced.answers other wireBlock member
  · intro hash event waiting correct
    have notGenesis := serviced.missing hash event waiting
    rcases (serviced.expected hash event waiting correct).resolve_right nofun
      with arriving | ⟨other, member, stores, requested⟩
    · exact .inl (.inl arriving)
    rcases requestedStill requested notGenesis stores with still | handed
    · exact .inl (.inr ⟨other, member, stores, still⟩)
    · exact .inr (List.mem_map_of_mem handed)
  · intro event arrived correct source hash asks
    refine (serviced.pursued event arrived correct source hash asks).imp_right ?_
    rintro (stores | requested | held | later)
    · exact .inl stores
    · by_cases isGenesis : hash = zeroHash
      · left
        rw [isGenesis, HotstuffCore.Stores]
        exact Option.isSome_of_eq_some sound.attended.tree.cacheGenesis
      · exact .inr ((requestedStill requested isGenesis
          (serviced.stores_of_owes collisionFree (fun _ _ => id) surrounded
            (sound.votes event arrived) correct
            (NetworkEventQueue.NetEvent.Asks.owes asks
              arrived))).imp_right .inl)
    · cases held
    · exact .inr (.inr (.inr later))

end Process

/-! ### Messages that have arrived -/

namespace NetworkEventQueue

variable {network : NetworkEventQueue} {message : Message}

/-- The event is the message. -/
def Carries (network : NetworkEventQueue) (event : NetEvent) : Message → Prop
  | .vote cert voter => event.netEvent = .vote cert voter
  | .propose wireBlock proposer => ∃ p, event.netEvent = .proposal p proposer ∧
      (network.core.block p).wireBlock.header = wireBlock.header

def Got (network : NetworkEventQueue) (message : Message) : Prop :=
  ∃ event ∈ network.received, network.Carries event message

/-- The core has got the message. -/
def Processed (network : NetworkEventQueue) (message : Message) : Prop :=
  ∃ entry ∈ network.hotstuffEventQueue.take network.taken,
    network.Carries entry.1 message

theorem Attended.got_next (attended : network.Attended [])
    {action : NetworkEventQueue.Action} (enabled : network.Enabled action)
    (got : network.Got message) : (network.next action).Got message := by
  obtain ⟨event, arrived, carries⟩ := got
  refine ⟨event, ?_, ?_⟩
  · rw [attended.received_next]
    exact List.mem_append_left _ arrived
  · cases message with
    | vote => exact carries
    | propose wireBlock proposer =>
        obtain ⟨p, isProposal, header⟩ := carries
        obtain ⟨-, bound⟩ :=
          NetEvent.Brings.known (.inl isProposal) (attended.known event arrived)
        obtain ⟨-, same, -⟩ :=
          (attended.grows_next enabled).longer.identity p bound
        exact ⟨p, isProposal, same.trans header⟩

theorem Attended.got_message (attended : network.Attended [])
    (message : Message) : (network.next message.toAction).Got message := by
  cases message with
  | vote cert voter =>
      refine ⟨⟨.vote cert voter, network.received.length⟩, ?_, rfl⟩
      rw [attended.received_next]
      exact List.mem_append_right _ (List.mem_singleton_self _)
  | propose wireBlock proposer =>
      refine ⟨⟨.proposal network.core.store.heap.length proposer,
        network.received.length⟩, ?_, _, rfl, ?_⟩
      · rw [attended.received_next]
        exact List.mem_append_right _ (List.mem_singleton_self _)
      · exact (network.block_receiveBlock wireBlock proposer).1

end NetworkEventQueue

/-! ### Clusters -/

namespace Cluster

/-- No replica collects garbage. -/
def Keeping (_ : Cluster) : Label → Prop
  | .thread _ (.own .garbageCollect) => False
  | _ => True

instance decidableKeeping (cluster : Cluster) (label : Label) :
    Decidable (cluster.Keeping label) := by
  unfold Keeping
  split
  · exact inferInstanceAs (Decidable False)
  · exact inferInstanceAs (Decidable True)

/-- The steps with which a replica works on what it has got or sent. -/
def Label.isInternal : Label → Bool
  | .thread _ (.own _) | .inject _ _ => false
  | .thread _ _ | .selfEvent _ | .client _ _ _ | .worker _ _ _ => true

/-- A step of the replicas, with which they work for each other. -/
def Label.Among (replicas : Finset ReplicaID) : Label → Prop
  | .thread rid _ | .selfEvent rid | .inject rid _ => rid ∈ replicas
  | .client rid peer _ | .worker rid peer _ => rid ∈ replicas ∧ peer ∈ replicas

end Cluster

/-- The message is not a vote in the name of a faulty replica. -/
def Deployment.Trusts (deployment : Deployment) : Message → Prop
  | .vote _ voter => voter ∉ deployment.faulty
  | .propose _ _ => True

/-- No thread has anything left to do. -/
def Deployment.AtRest (deployment : Deployment) (cluster : Cluster) : Prop :=
  ∀ label, label.isInternal = true → ¬ deployment.Allowed cluster label

/-- The replicas have nothing left to do for each other. -/
def Deployment.RestAmong (deployment : Deployment)
    (replicas : Finset ReplicaID) (cluster : Cluster) : Prop :=
  ∀ label, label.isInternal = true → label.Among replicas →
    ¬ deployment.Allowed cluster label

theorem Deployment.AtRest.among {deployment : Deployment} {cluster : Cluster}
    (atRest : deployment.AtRest cluster) {replicas : Finset ReplicaID} :
    deployment.RestAmong replicas cluster :=
  fun label isInternal _ => atRest label isInternal

namespace Cluster

variable {deployment : Deployment} {cluster : Cluster}

structure Serviced (deployment : Deployment) (cluster : Cluster) : Prop where
  processes : ∀ rid, (cluster rid).Serviced deployment cluster.cores []
  /-- what has been delivered according to a client has arrived -/
  delivered : ∀ rid peer,
    ∀ number ∈ ((cluster rid).otherClients peer).history.delivered,
      ∀ message, ((cluster rid).otherClients peer).history.submitted[number]? =
        some message → (cluster peer).network.Got message

/-- What a process does without its queues and clients. -/
theorem Serviced.replace (serviced : cluster.Serviced deployment)
    {rid : ReplicaID} {process : Process}
    (sameNetwork : process.network = (cluster rid).network)
    (kept : process.Serviced deployment cluster.cores [])
    (delivered : ∀ peer,
      ∀ number ∈ (process.otherClients peer).history.delivered, ∀ message,
        (process.otherClients peer).history.submitted[number]? = some message →
          (cluster peer).network.Got message) :
    Cluster.Serviced deployment (update cluster rid process) := by
  have sameCores : Cluster.cores (update cluster rid process) =
      cluster.cores := by
    apply cores_replace
    rw [sameNetwork]
    rfl
  have networks (other : ReplicaID) :
      (update cluster rid process other).network = (cluster other).network := by
    by_cases isRid : other = rid
    · subst isRid
      rw [Function.update_self, sameNetwork]
    · rw [Function.update_of_ne isRid]
  constructor
  · intro other
    rw [sameCores]
    by_cases isRid : other = rid
    · subst isRid
      rw [Function.update_self]
      exact kept
    · rw [Function.update_of_ne isRid]
      exact serviced.processes other
  · intro other peer number arrived message found
    rw [networks]
    by_cases isRid : other = rid
    · subst isRid
      rw [Function.update_self] at arrived found
      exact delivered peer number arrived message found
    · rw [Function.update_of_ne isRid] at arrived found
      exact serviced.delivered other peer number arrived message found

/-- The client is done with its step, and the peer has got the message. -/
theorem Serviced.stepClient (serviced : cluster.Serviced deployment)
    {rid peer : ReplicaID} {action : HotstuffProtocolClient.Action Message}
    (process : (cluster rid).Sound deployment cluster.cores rid)
    (enabled : ((cluster rid).otherClients peer).client.Enabled action)
    (unsubmitted : ∀ message, action ≠ .submit message)
    (got : ∀ message, (cluster rid).outgoing peer action = some message →
      (cluster peer).network.Got message) :
    Cluster.Serviced deployment
      (update cluster rid ((cluster rid).stepClient peer action)) := by
  refine serviced.replace rfl { serviced.processes rid with } ?_
  intro other number arrived message found
  change number ∈ (update (cluster rid).otherClients peer _
    other).history.delivered at arrived
  change (update (cluster rid).otherClients peer _
    other).history.submitted[number]? = _ at found
  by_cases same : other = peer
  · subst same
    rw [Function.update_self] at arrived found
    rw [ClientRun.submitted_next unsubmitted] at found
    rcases process.mem_delivered enabled arrived with old | new
    · exact serviced.delivered rid other number old message found
    · exact got message (new.trans found)
  · rw [Function.update_of_ne same] at arrived found
    exact serviced.delivered rid other number arrived message found

section Act

variable {rid : ReplicaID} {process : Process}
  {action : NetworkEventQueue.Action}
  (sameNetwork : process.network = (cluster rid).network)
  (attended : process.network.Attended [])
  (enabled : process.network.Enabled action)

include sameNetwork attended enabled

theorem storesMore_act : StoresMore cluster.cores
    (cores (update cluster rid (process.act action))) := by
  intro other hash stores
  rw [cores_update]
  by_cases isRid : other = rid
  · subst isRid
    rw [Function.update_self]
    apply (attended.grows_next enabled).stores
    rw [sameNetwork]
    exact stores
  · rw [Function.update_of_ne isRid]
    exact stores

theorem got_act {other : ReplicaID} {message : Message}
    (got : (cluster other).network.Got message) :
    (update cluster rid (process.act action) other).network.Got message := by
  by_cases isRid : other = rid
  · subst isRid
    rw [Function.update_self]
    apply attended.got_next enabled
    rw [sameNetwork]
    exact got
  · rw [Function.update_of_ne isRid]
    exact got

end Act

section Steps

variable (collisionFree : CollisionFree)
  (configured : deployment.WellConfigured)

include collisionFree configured

theorem Sound.surrounded (sound : cluster.Sound deployment) :
    Process.Surrounded deployment cluster.cores := by
  have tracks (rid : ReplicaID) :=
    tracks_of_reachable collisionFree configured sound.cores rid
  constructor
  · intro rid
    obtain ⟨abstract, tracks⟩ := tracks rid
    exact tracks.valid.tree
  · intro rid hash voted
    obtain ⟨abstract, tracks⟩ := tracks rid
    obtain ⟨effect, inTrace, isVote⟩ := List.mem_filterMap.mp voted
    cases effect with
    | doVote p cert target =>
        cases isVote
        obtain ⟨placed, rfl⟩ := tracks.valid.votedPlaced p cert target inTrace
        exact tracks.valid.anchored.getBlock_isSome placed
    | _ => cases isVote

/-- A replica stores what it proposes. -/
theorem Sound.stores_proposed (sound : cluster.Sound deployment)
    {rid : ReplicaID} {wireBlock : HotstuffBlockWire}
    (proposed : wireBlock ∈ (cluster.cores rid).proposedWires) :
    (cluster.cores rid).Stores (hashHeader wireBlock.header) := by
  obtain ⟨abstract, tracks⟩ :=
    tracks_of_reachable collisionFree configured sound.cores rid
  have issued := (genuine_of_reachable collisionFree configured
    sound.cores).issued rid
  obtain ⟨effect, inTrace, isProposal⟩ := List.mem_filterMap.mp proposed
  cases effect with
  | broadcastProposal p proposedBlock =>
      cases isProposal
      obtain ⟨linked, header⟩ := issued.proposals p _ inTrace
      rw [← header]
      exact HotstuffCore.stores_linked tracks.valid.tree linked
  | _ => cases isProposal

theorem Serviced.act (serviced : cluster.Serviced deployment)
    (sound : cluster.Sound deployment) {rid : ReplicaID}
    (member : rid ∈ deployment.config.ids)
    (fits : Deployment.HeightsFit (cluster.cores rid)) {process : Process}
    (kept : process.Sound deployment cluster.cores rid)
    (sameNetwork : process.network = (cluster rid).network)
    (sameClients : process.otherClients = (cluster rid).otherClients)
    {inHand : List (ReplicaID × Hash)}
    (keptServiced : process.Serviced deployment cluster.cores inHand)
    {action : NetworkEventQueue.Action}
    (enabled : process.network.Enabled action)
    (authorized : deployment.Authorized cluster.cores action)
    (notCollecting : action ≠ .own .garbageCollect)
    (supplied : ∀ wireBlock source, action = .propose wireBlock source ∨
      action = .fetched wireBlock source →
        (cluster.cores source).Stores (hashHeader wireBlock.header))
    (passedOn : ∀ source hash, (source, hash) ∈ inHand →
      ∃ event ∈ process.network.arrivals action, ∃ p, event.Brings p source ∧
        (process.network.next action).core.store.hash p = hash) :
    Cluster.Serviced deployment (update cluster rid (process.act action)) := by
  have soundAfter := sound.act collisionFree configured member fits kept
    sameNetwork enabled authorized
  have more := storesMore_act sameNetwork kept.attended enabled
  constructor
  case processes =>
    intro other
    by_cases isRid : other = rid
    · subst isRid
      obtain ⟨abstract, tracks⟩ :=
        tracks_of_reachable collisionFree configured sound.cores other
      have acted := soundAfter.processes other
      rw [Function.update_self] at acted ⊢
      refine keptServiced.act kept acted enabled more passedOn collisionFree ?_
        notCollecting (soundAfter.surrounded collisionFree configured) ?_
      · rw [sameNetwork]
        exact tracks.sameConfig
      · exact fun wireBlock source brings =>
          more source _ (supplied wireBlock source brings)
    · rw [Function.update_of_ne isRid]
      exact (serviced.processes other).later more
  case delivered =>
    intro other peer number arrived message found
    apply got_act sameNetwork kept.attended enabled
    by_cases isRid : other = rid
    · subst isRid
      have client := ((sound.processes other).clients peer).1
      rw [Function.update_self] at arrived found
      change number ∈ ((process.otherClients peer).submitAll
        _).history.delivered at arrived
      change ((process.otherClients peer).submitAll
        _).history.submitted[number]? = _ at found
      rw [sameClients, ClientRun.submitAll_eq] at arrived found
      have bound := (client.inOrder.current number arrived).2
      rw [List.getElem?_append_left bound] at found
      exact serviced.delivered other peer number arrived message found
    · rw [Function.update_of_ne isRid] at arrived found
      exact serviced.delivered other peer number arrived message found

/-- A message arrives, or is refused. -/
theorem Serviced.deliver (serviced : cluster.Serviced deployment)
    (sound : cluster.Sound deployment) {rid : ReplicaID}
    (member : rid ∈ deployment.config.ids)
    (fits : Deployment.HeightsFit (cluster.cores rid)) {message : Message}
    (authentic : deployment.Authentic cluster.cores message) :
    (cluster.deliver rid message.toAction).Serviced deployment := by
  unfold Cluster.deliver Process.handle
  split
  case isTrue enabled =>
    refine serviced.act collisionFree configured sound member fits
      (sound.processes rid) rfl rfl (serviced.processes rid) enabled
      authentic.authorized ?_ ?_ nofun
    · cases message <;> nofun
    · intro wireBlock source brings
      cases message with
      | vote => rcases brings with brings | brings <;> cases brings
      | propose =>
          rcases brings with brings | brings <;> cases brings
          exact sound.stores_proposed collisionFree configured authentic.2
  case isFalse =>
    rw [Function.update_eq_self]
    exact serviced

theorem Serviced.takeSelfEvent (serviced : cluster.Serviced deployment)
    (sound : cluster.Sound deployment) {rid : ReplicaID}
    (member : rid ∈ deployment.config.ids)
    (fits : Deployment.HeightsFit (cluster.cores rid))
    (untaken : (cluster rid).selfTaken < (cluster rid).selfClient.length) :
    Cluster.Serviced deployment
      (update cluster rid (cluster rid).takeSelfEvent) := by
  obtain ⟨event, found⟩ : ∃ event,
      (cluster rid).selfClient[(cluster rid).selfTaken]? = some event :=
    ⟨_, List.getElem?_eq_getElem untaken⟩
  have own := List.mem_of_getElem? found
  have enabled := sound.enabled_selfEvent collisionFree configured member own
  have process := sound.processes rid
  have counted : { cluster rid with
      selfTaken := (cluster rid).selfTaken + 1 }.Sound deployment
        cluster.cores rid := { process with }
  have countedServiced : { cluster rid with
      selfTaken := (cluster rid).selfTaken + 1 }.Serviced deployment
        cluster.cores [] := { serviced.processes rid with }
  rw [Process.takeSelfEvent, found]
  refine serviced.act collisionFree configured sound member fits counted rfl
    rfl countedServiced enabled trivial ?_ ?_ ?_
  · -- a replica does not send itself to collect garbage
    rintro same
    cases same
    rw [process.selfClient] at own
    obtain ⟨effect, -, toSelf⟩ := List.mem_filterMap.mp own
    cases effect with
    | doVote =>
        simp only [Effect.toSelf] at toSelf
        split at toSelf <;> cases toSelf
    | _ => cases toSelf
  · intro wireBlock source brings
    rcases brings with brings | brings <;> cases brings
  · intro source hash held
    cases held

theorem Serviced.client (serviced : cluster.Serviced deployment)
    (sound : cluster.Sound deployment) {rid peer : ReplicaID}
    {action : HotstuffProtocolClient.Action Message}
    (fits : ∀ rid ∈ deployment.config.ids,
      Deployment.HeightsFit (cluster.cores rid))
    (allowed : deployment.Allowed cluster (.client rid peer action)) :
    (cluster.next (.client rid peer action)).Serviced deployment := by
  obtain ⟨⟨member, peerMember, different⟩, enabled, kind⟩ := allowed
  have process := sound.processes rid
  have unsubmitted : ∀ message, action ≠ .submit message := by
    rintro message rfl
    exact kind
  simp only [Cluster.next]
  split
  case h_1 nothing =>
    apply serviced.stepClient process enabled unsubmitted
    intro message sent
    cases nothing.symm.trans sent
  case h_2 message sent =>
    -- the peer takes its step first, which makes no difference
    have submitted := process.outgoing enabled sent
    have taken := sound.enabled_message collisionFree configured member
      submitted
    rw [process.submitted] at submitted
    obtain ⟨effect, inTrace, toPeer⟩ := List.mem_filterMap.mp submitted
    have authentic : deployment.Authentic cluster.cores message :=
      authentic_of_toPeer member (List.mem_reverse.mp inTrace) toPeer
    have arrived := serviced.deliver collisionFree configured sound peerMember
      (fits peer peerMember) authentic
    have soundThen := sound.deliver collisionFree configured peerMember
      (fits peer peerMember) authentic.authorized
    have self : cluster.deliver peer message.toAction rid = cluster rid :=
      Function.update_of_ne different.symm _ _
    have commuted : (Cluster.deliver (update cluster rid
        ((cluster rid).stepClient peer action)) peer message.toAction) =
        update (cluster.deliver peer message.toAction) rid
          ((cluster.deliver peer message.toAction rid).stepClient peer
            action) := by
      rw [self, Cluster.deliver, Cluster.deliver, Function.update_of_ne different]
      exact (Function.update_comm different _ _ _).symm
    rw [commuted]
    refine arrived.stepClient (soundThen.processes rid) ?_ unsubmitted ?_
    · rw [self]
      exact enabled
    · intro other otherSent
      rw [self, sent] at otherSent
      cases otherSent
      rw [Cluster.deliver, Function.update_self, Process.handle, if_pos taken]
      exact (sound.processes peer).attended.got_message message

/-- A server has all blocks in memory, and answers with those that it has. -/
theorem Serviced.fetch_complete (serviced : cluster.Serviced deployment)
    (sound : cluster.Sound deployment) (peer : ReplicaID) (reqs : List Hash) :
    (∀ wireBlock ∈ (cluster.cores peer).store.fetch reqs,
      (cluster.cores peer).Stores (hashHeader wireBlock.header)) ∧
    ∀ hash ∈ reqs, hash ≠ zeroHash → (cluster.cores peer).Stores hash →
      ∃ wireBlock ∈ (cluster.cores peer).store.fetch reqs,
        hashHeader wireBlock.header = hash := by
  have genuine := genuine_of_reachable collisionFree configured sound.cores
  have tree := (sound.processes peer).attended.tree
  have answered := BlockStore.map_fetch tree (genuine.genesis peer) reqs
  constructor
  · intro wireBlock inside
    have served : hashHeader wireBlock.header ∈
        reqs.filter (cluster peer).network.core.store.isInMemory := by
      rw [← answered]
      exact List.mem_map_of_mem inside
    have kept := (List.mem_filter.mp served).2
    unfold BlockStore.isInMemory at kept
    unfold HotstuffCore.Stores Cluster.cores
    cases found : (cluster peer).network.core.store.getBlock
        (hashHeader wireBlock.header) with
    | none =>
        rw [found] at kept
        cases kept
    | some => rfl
  · intro hash inside notGenesis stores
    obtain ⟨p, wireBlock, found, held, hashEq⟩ :=
      (serviced.processes peer).unflushed.exists_body tree stores notGenesis
    exact ⟨wireBlock, List.mem_filterMap.mpr
      ⟨hash, inside, Option.bind_eq_some_iff.mpr ⟨p, found, held⟩⟩, hashEq⟩

theorem Serviced.worker (serviced : cluster.Serviced deployment)
    (sound : cluster.Sound deployment) {rid peer : ReplicaID}
    {action : BlockFetchWorker.Action}
    (fits : ∀ rid ∈ deployment.config.ids,
      Deployment.HeightsFit (cluster.cores rid))
    (allowed : deployment.Allowed cluster (.worker rid peer action)) :
    (cluster.next (.worker rid peer action)).Serviced deployment := by
  have movedSound := sound.stepWorker collisionFree configured allowed
  obtain ⟨⟨member, peerMember⟩, enabled, kind⟩ := allowed
  have process := sound.processes rid
  have complete := serviced.fetch_complete collisionFree configured sound peer
    ((cluster rid).queues peer).worker.req
  have moved := (serviced.processes rid).stepWorker collisionFree process
    (sound.surrounded collisionFree configured) enabled (by
    rintro outcome responses rfl
    rw [show responses = _ from kind]
    exact complete)
  simp only [Cluster.next]
  split
  case h_1 nothing =>
    rw [nothing] at moved
    exact serviced.replace rfl moved fun other number arrived message found =>
      serviced.delivered rid other number arrived message found
  case h_2 wireBlock handed =>
    rw [handed] at moved
    obtain ⟨inside, proposed⟩ := sound.proposed_handedOn handed
    have taken : ((cluster rid).stepWorker peer action).network.Enabled
        (.fetched wireBlock peer) :=
      (sound.enabled_block collisionFree configured rid peerMember proposed).2
    rw [Cluster.deliver, Function.update_self, Function.update_idem,
      Process.handle, if_pos taken]
    refine serviced.act collisionFree configured sound member (fits rid member)
      movedSound rfl rfl moved taken proposed ?_ ?_ ?_
    · intro collects
      cases collects
    · intro received source brings
      rcases brings with brings | brings <;> cases brings
      exact (serviced.processes rid).answers _ _ inside
    · intro source hash held
      cases List.mem_singleton.mp held
      exact NetworkEventQueue.brings_fetched _ wireBlock peer

theorem Serviced.next (serviced : cluster.Serviced deployment)
    (sound : cluster.Sound deployment) {label : Label}
    (allowed : deployment.cluster.enabled cluster label)
    (keeping : cluster.Keeping label) :
    (cluster.next label).Serviced deployment := by
  obtain ⟨fits, allowed⟩ := allowed
  cases label with
  | thread rid action =>
      obtain ⟨member, isLocal, enabled⟩ := allowed
      refine serviced.act collisionFree configured sound member
        (fits rid member) (sound.processes rid) rfl rfl
        (serviced.processes rid) enabled ?_ ?_ ?_ nofun
      · cases action <;> first | exact trivial | cases isLocal
      · rintro rfl
        exact keeping
      · rintro wireBlock source (rfl | rfl) <;> cases isLocal
  | selfEvent rid =>
      obtain ⟨member, -, -, untaken⟩ := allowed
      exact serviced.takeSelfEvent collisionFree configured sound member
        (fits rid member) untaken
  | client rid peer action =>
      exact serviced.client collisionFree configured sound fits allowed
  | worker rid peer action =>
      exact serviced.worker collisionFree configured sound fits allowed
  | inject rid message =>
      obtain ⟨member, authentic⟩ := allowed
      exact serviced.deliver collisionFree configured sound member
        (fits rid member) authentic

theorem serviced_of_reachable
    (reachable : (deployment.cluster.restrict Keeping).Reachable cluster) :
    cluster.Serviced deployment := by
  refine reachable.invariant (Serviced deployment) ?_ ?_
  · rintro start rfl
    exact ⟨fun rid => Process.serviced_boot deployment _ rid _, nofun⟩
  · intro cluster label reached serviced allowed
    exact serviced.next collisionFree configured
      (sound_of_reachable collisionFree configured reached.of_restrict)
      allowed.1 allowed.2

end Steps

/-! ### The state of rest -/

/-- Nothing is left behind. -/
structure Complete (deployment : Deployment) (cluster : Cluster) : Prop where
  /-- what waits for blocks are votes in the name of faulty replicas -/
  parked : ∀ rid ∈ deployment.config.ids,
    ∀ event ∈ (cluster rid).network.blockFetchManager.parked,
      ¬ deployment.Correct event
  /-- a replica has processed its own votes and proposals -/
  own : ∀ rid ∈ deployment.config.ids,
    (cluster rid).selfClient.take (cluster rid).selfTaken =
      (cluster.cores rid).trace.reverse.filterMap (Effect.toSelf rid)
  /-- and the others those that were sent to them -/
  sent : ∀ rid ∈ deployment.config.ids, ∀ peer ∈ deployment.config.ids,
    peer ≠ rid → ∀ effect ∈ (cluster.cores rid).trace,
      ∀ message, effect.toPeer rid peer = some message →
        deployment.Trusts message → (cluster peer).network.Processed message
  /-- all replicas have the same blocks -/
  stored : ∀ rid ∈ deployment.config.ids, ∀ hash,
    (cluster.cores rid).Stores hash ↔ hash = zeroHash ∨
      ∃ wireBlock, deployment.Proposed cluster.cores wireBlock ∧
        hashHeader wireBlock.header = hash

section Rest

variable {rid peer : ReplicaID}

section Among

variable {replicas : Finset ReplicaID}
  (inside : replicas ⊆ deployment.config.ids)
  (sound : cluster.Sound deployment)
  (atRest : deployment.RestAmong replicas cluster) (member : rid ∈ replicas)

include inside sound atRest member

theorem queue_at_rest
    (alive : (cluster rid).network.core.failed = none) :
    (cluster rid).network.queue.pending = [] ∧
      (cluster rid).network.hotstuffEventQueue.length ≤
        (cluster rid).network.taken ∧
      (cluster rid).selfClient.length ≤ (cluster rid).selfTaken := by
  have running := And.intro (sound.processes rid).attended.failed alive
  have work : (cluster rid).network.queue.workList = [] := by
    by_contra some
    exact atRest (.thread rid .handleEvent) rfl member
      ⟨inside member, rfl, running, by simpa using some⟩
  have events : (cluster rid).network.queue.events = [] := by
    by_contra some
    exact atRest (.thread rid .takeEvents) rfl member
      ⟨inside member, rfl, running, by simp [work], by simpa using some⟩
  refine ⟨by rw [GenericEventQueue.pending, work, events]; rfl, ?_, ?_⟩
  · by_contra more
    exact atRest (.thread rid .hotstuffEvent) rfl member
      ⟨inside member, rfl, running, Nat.lt_of_not_le more⟩
  · by_contra more
    exact atRest (.selfEvent rid) rfl member
      ⟨inside member, running.1, alive, Nat.lt_of_not_le more⟩

theorem client_at_rest (peerMember : peer ∈ replicas) (different : peer ≠ rid) :
    ((cluster rid).otherClients peer).history.due = [] := by
  obtain ⟨client, live⟩ := (sound.processes rid).clients peer
  by_contra some
  obtain ⟨action, success, enabled⟩ := client.exists_succeeds live some
  refine atRest (.client rid peer action) rfl ⟨member, peerMember⟩
    ⟨⟨inside member, inside peerMember, different⟩, enabled, ?_⟩
  cases action <;> first | exact trivial | cases success

theorem worker_at_rest (peerMember : peer ∈ replicas) (hash : Hash) :
    ¬ ((cluster rid).queues peer).worker.Requested hash := by
  obtain ⟨worker, live⟩ := (sound.processes rid).workers peer
  have pair := And.intro member peerMember
  have members := And.intro (inside member) (inside peerMember)
  cases place : ((cluster rid).queues peer).worker.rpc.place with
  | starting => exact (worker.starting place).elim
  | entering => exact (atRest (.worker rid peer .enter) rfl pair
      ⟨members, place, trivial⟩).elim
  | opening => exact (atRest (.worker rid peer (.tryOpen true)) rfl pair
      ⟨members, place, trivial⟩).elim
  | calling => exact (atRest (.worker rid peer (.call .answered _)) rfl pair
      ⟨members, place, rfl⟩).elim
  | returned => cases live.symm.trans (worker.rpc.returned place)
  | crashed => cases live.symm.trans (worker.rpc.crashed place).1
  | waiting =>
      have handed : ((cluster rid).queues peer).worker.responses = [] := by
        by_contra some
        exact atRest (.worker rid peer .handOn) rfl pair
          ⟨members, ⟨place, some⟩, trivial⟩
      have none : ((cluster rid).queues peer).worker.reqs = ∅ := by
        by_contra some
        exact atRest (.worker rid peer (.wake
          ((cluster rid).queues peer).worker.reqs.toList)) rfl pair
          ⟨members, ⟨place, handed, .inr some, Finset.nodup_toList _,
            Finset.toList_toFinset _⟩, trivial⟩
      rintro (asked | inCall | ⟨wireBlock, inside, -⟩)
      · rw [none] at asked
        cases asked
      · rw [worker.waiting place] at inCall
        cases inCall
      · rw [handed] at inside
        cases inside

theorem got_at_rest (serviced : cluster.Serviced deployment)
    (peerMember : peer ∈ replicas) (different : peer ≠ rid)
    {effect : Effect} (inTrace : effect ∈ (cluster.cores rid).trace)
    {message : Message} (toPeer : effect.toPeer rid peer = some message) :
    (cluster peer).network.Got message := by
  have submitted : message ∈
      ((cluster rid).otherClients peer).history.submitted := by
    rw [(sound.processes rid).submitted peer]
    exact List.mem_filterMap.mpr ⟨effect, List.mem_reverse.mpr inTrace, toPeer⟩
  obtain ⟨number, found⟩ := List.mem_iff_getElem?.mp submitted
  obtain ⟨bound, -⟩ := List.getElem?_eq_some_iff.mp found
  have acknowledged := List.drop_eq_nil_iff.mp
    (client_at_rest inside sound atRest member peerMember different)
  have inOrder := ((sound.processes rid).clients peer).1.inOrder
  exact serviced.delivered rid peer number
    (inOrder.arrived number (Nat.lt_of_lt_of_le bound acknowledged)) message
    found

end Among

theorem parked_at_rest (serviced : cluster.Serviced deployment)
    (sound : cluster.Sound deployment) (atRest : deployment.AtRest cluster)
    (member : rid ∈ deployment.config.ids)
    (alive : (cluster rid).network.core.failed = none) {event : NetEvent}
    (parked : event ∈ (cluster rid).network.blockFetchManager.parked) :
    ¬ deployment.Correct event := by
  intro correct
  obtain ⟨hash, -, waiting⟩ :=
    BlockFetchManager.exists_waiting_of_mem_parked parked
  obtain ⟨empty, -⟩ :=
    queue_at_rest subset_rfl sound atRest.among member alive
  rcases (serviced.processes rid).expected hash event waiting correct with
    (⟨bringing, pending, -⟩ | ⟨peer, peerMember, -, requested⟩) | inHand
  · rw [empty] at pending
    cases pending
  · exact worker_at_rest subset_rfl sound atRest.among member peerMember hash
      requested
  · cases inHand

theorem processed_at_rest (serviced : cluster.Serviced deployment)
    (sound : cluster.Sound deployment) (atRest : deployment.AtRest cluster)
    (member : rid ∈ deployment.config.ids)
    (alive : (cluster rid).network.core.failed = none) {message : Message}
    (got : (cluster rid).network.Got message)
    (trusts : deployment.Trusts message) :
    (cluster rid).network.Processed message := by
  obtain ⟨event, arrived, carries⟩ := got
  obtain ⟨isMessage, correct⟩ :
      event.isMessage = true ∧ deployment.Correct event := by
    cases message with
    | vote cert voter =>
        refine ⟨by rw [NetEvent.isMessage, show event.netEvent = _ from carries],
          ?_⟩
        intro otherCert other isVote
        cases isVote.symm.trans carries
        exact trusts
    | propose wireBlock proposer =>
        obtain ⟨p, isProposal, -⟩ := carries
        refine ⟨by rw [NetEvent.isMessage, isProposal], ?_⟩
        intro otherCert other isVote
        cases isVote.symm.trans isProposal
  obtain ⟨empty, taken, -⟩ :=
    queue_at_rest subset_rfl sound atRest.among member alive
  rcases (sound.processes rid).attended.kept event arrived isMessage with
    (pending | parked | forwarded) | inHand
  · rw [empty] at pending
    cases pending
  · exact (parked_at_rest serviced sound atRest member alive parked
      correct).elim
  · obtain ⟨entry, inside, rfl⟩ := List.mem_map.mp forwarded
    refine ⟨entry, ?_, carries⟩
    rw [List.take_of_length_le taken]
    exact inside
  · cases inHand

/-- The core has the block of a proposal that it has processed. -/
theorem stores_of_processed (attended : (cluster rid).network.Attended [])
    {wireBlock : HotstuffBlockWire} {proposer : ReplicaID}
    (processed : (cluster rid).network.Processed
      (.propose wireBlock proposer)) :
    (cluster.cores rid).Stores (hashHeader wireBlock.header) := by
  obtain ⟨entry, taken, p, isProposal, header⟩ := processed
  have delivers := attended.delivers entry (List.mem_of_mem_take taken)
  obtain ⟨source, delivered⟩ := entry
  cases delivered with
  | vote cert block voter => cases delivers.1.symm.trans isProposal
  | proposal block proposer =>
      obtain ⟨isBlock, linked⟩ := delivers
      cases isBlock.symm.trans isProposal
      rw [← header]
      exact HotstuffCore.stores_linked attended.tree linked

theorem stored_at_rest (collisionFree : CollisionFree)
    (configured : deployment.WellConfigured)
    (serviced : cluster.Serviced deployment) (sound : cluster.Sound deployment)
    (atRest : deployment.AtRest cluster) (member : rid ∈ deployment.config.ids)
    (alive : (cluster rid).network.core.failed = none) (hash : Hash) :
    (cluster.cores rid).Stores hash ↔ hash = zeroHash ∨
      ∃ wireBlock, deployment.Proposed cluster.cores wireBlock ∧
        hashHeader wireBlock.header = hash := by
  have genuine := genuine_of_reachable collisionFree configured sound.cores
  have attended := (sound.processes rid).attended
  have tree : (cluster.cores rid).store.WellFormed := attended.tree
  constructor
  · intro stores
    by_cases isGenesis : hash = zeroHash
    · exact .inl isGenesis
    · obtain ⟨p, wireBlock, -, held, hashEq⟩ :=
        (serviced.processes rid).unflushed.exists_body tree stores isGenesis
      exact .inr ⟨wireBlock, genuine.blocks rid p wireBlock held, hashEq⟩
  · rintro (rfl | ⟨wireBlock, ⟨proposer, proposerMember, proposed⟩, rfl⟩)
    · rw [HotstuffCore.Stores, tree.cacheGenesis]
      rfl
    · by_cases same : rid = proposer
      · subst same
        exact sound.stores_proposed collisionFree configured proposed
      · obtain ⟨effect, inTrace, isProposal⟩ := List.mem_filterMap.mp proposed
        cases effect with
        | broadcastProposal p proposedBlock =>
            cases isProposal
            have got := got_at_rest subset_rfl sound atRest.among
              proposerMember serviced member same inTrace rfl
            exact stores_of_processed attended
              (processed_at_rest serviced sound atRest member alive got trivial)
        | _ => cases isProposal

end Rest

end Cluster

/-- A cluster that does not collect garbage has left nothing behind when no
thread has anything to do. -/
theorem nothing_left_at_rest {deployment : Deployment} {cluster : Cluster}
    (collisionFree : CollisionFree) (configured : deployment.WellConfigured)
    (reachable : (deployment.cluster.restrict Cluster.Keeping).Reachable
      cluster)
    (atRest : deployment.AtRest cluster) : cluster.Complete deployment := by
  have sound := Cluster.sound_of_reachable collisionFree configured
    reachable.of_restrict
  have serviced :=
    Cluster.serviced_of_reachable collisionFree configured reachable
  have alive (rid : ReplicaID) : (cluster rid).network.core.failed = none := by
    obtain ⟨abstract, tracks⟩ :=
      tracks_of_reachable collisionFree configured sound.cores rid
    exact tracks.alive
  refine ⟨?_, ?_, ?_, ?_⟩
  · intro rid member event parked
    exact Cluster.parked_at_rest serviced sound atRest member (alive rid) parked
  · intro rid member
    obtain ⟨-, -, taken⟩ :=
      Cluster.queue_at_rest subset_rfl sound atRest.among member (alive rid)
    rw [List.take_of_length_le taken]
    exact (sound.processes rid).selfClient
  · intro rid member peer peerMember different effect inTrace message toPeer
    exact Cluster.processed_at_rest serviced sound atRest peerMember
      (alive peer) (Cluster.got_at_rest subset_rfl sound atRest.among member
        serviced peerMember different inTrace toPeer)
  · intro rid member hash
    exact Cluster.stored_at_rest collisionFree configured serviced sound atRest
      member (alive rid) hash

/-! ### A replica that catches up -/

/-- Nothing is queued, and clients and workers wait for more work. -/
def Process.Idle (peers : Finset ReplicaID) (rid : ReplicaID)
    (process : Process) : Prop :=
  process.network.queue.pending = [] ∧
  process.network.hotstuffEventQueue.length ≤ process.network.taken ∧
  process.selfClient.length ≤ process.selfTaken ∧
  ∀ peer ∈ peers,
    (peer ≠ rid → (process.otherClients peer).client.rpc.place = .waiting ∧
      (process.otherClients peer).client.rpc.doneFlag = false ∧
      (process.otherClients peer).client.work = []) ∧
    (process.queues peer).worker.rpc.place = .waiting ∧
      (process.queues peer).worker.rpc.doneFlag = false ∧
      (process.queues peer).worker.reqs = ∅ ∧
      (process.queues peer).worker.responses = []

instance Process.decidableIdle (peers : Finset ReplicaID) (rid : ReplicaID)
    (process : Process) : Decidable (process.Idle peers rid) :=
  inferInstanceAs (Decidable (_ = [] ∧ _ ∧ _ ∧ ∀ peer ∈ peers,
    (peer ≠ rid → _ ∧ _ ∧ _ = []) ∧ _ ∧ _ ∧ _ ∧ _ = []))

theorem atRest_of_idle {deployment : Deployment} {cluster : Cluster}
    (idle : ∀ rid ∈ deployment.config.ids,
      (cluster rid).Idle deployment.config.ids rid) :
    deployment.AtRest cluster := by
  intro label isInternal allowed
  cases label with
  | thread rid action =>
      obtain ⟨member, isLocal, -, enabled⟩ := allowed
      obtain ⟨empty, taken, -⟩ := idle rid member
      obtain ⟨noWork, noEvents⟩ := List.append_eq_nil_iff.mp empty
      cases action with
      | takeEvents => simp [noEvents] at enabled
      | handleEvent => simp [noWork] at enabled
      | hotstuffEvent => exact Nat.not_lt.mpr taken enabled
      | own => cases isInternal
      | _ => cases isLocal
  | selfEvent rid =>
      obtain ⟨member, -, -, untaken⟩ := allowed
      obtain ⟨-, -, taken, -⟩ := idle rid member
      exact Nat.not_lt.mpr taken untaken
  | client rid peer action =>
      obtain ⟨⟨member, peerMember, different⟩, enabled, running⟩ := allowed
      obtain ⟨-, -, -, waits⟩ := idle rid member
      obtain ⟨waiting, live, empty⟩ := (waits peer peerMember).1 different
      cases action with
      | submit | stop => exact running
      | wake => simp [HotstuffProtocolClient.Enabled, live, empty] at enabled
      | _ => cases waiting.symm.trans enabled
  | worker rid peer action =>
      obtain ⟨⟨member, peerMember⟩, enabled, running⟩ := allowed
      obtain ⟨-, -, -, waits⟩ := idle rid member
      obtain ⟨-, waiting, live, noRequests, noResponses⟩ :=
        waits peer peerMember
      cases action with
      | addRequest | stop => exact running
      | wake => simp [BlockFetchWorker.Enabled, live, noRequests] at enabled
      | handOn => exact enabled.2 noResponses
      | _ => cases waiting.symm.trans enabled
  | inject => cases isInternal

end Quiescence

namespace Symbolic

open scoped Symbolic

def afterTwoRounds : Cluster :=
  fourDeployment.cluster.run fourBooted
    (proposeAndVote [1] true ++ proposeAndVote [2] false)

/-- What replica `0` has proposed, last block first. -/
def proposedBlock (number : Nat) : HotstuffBlockWire :=
  (afterTwoRounds 0).network.core.proposedWires.getD number
    HotstuffBlock.genesisBlock.wireBlock

/-- Replica `3` gets the second block first, and fetches the block before it.
It votes, and gets both blocks again from the client of replica `0`. -/
def catchUp : List Cluster.Label :=
  [.inject 3 (.propose (proposedBlock 0) 0), .thread 3 .takeEvents,
    .thread 3 .handleEvent] ++
  [.worker 3 0 (.wake [hashHeader (proposedBlock 1).header]),
    .worker 3 0 .enter, .worker 3 0 (.tryOpen true),
    .worker 3 0 (.call .answered [proposedBlock 1]), .worker 3 0 .handOn] ++
  [.thread 3 .takeEvents, .thread 3 .handleEvent, .thread 3 .takeEvents,
    .thread 3 .handleEvent, .thread 3 .hotstuffEvent] ++
  sendTo 3 0 true ++
  [.client 0 3 .wake, .client 0 3 .start, .client 0 3 .enter,
    .client 0 3 (.tryOpen true), .client 0 3 (.call .answered),
    .client 0 3 .enter, .client 0 3 (.call .answered)] ++
  [.thread 3 .takeEvents, .thread 3 .handleEvent, .thread 3 .handleEvent,
    .thread 3 .hotstuffEvent, .thread 3 .hotstuffEvent]

def afterCatchUp : Cluster :=
  fourDeployment.cluster.run afterTwoRounds catchUp

end Symbolic

open scoped Symbolic in
open Symbolic in
theorem nothing_left_after_catchUp :
    ∃ cluster : Cluster, fourDeployment.AtRest cluster ∧
      cluster.Complete fourDeployment ∧
      (cluster 3).network.blockFetchManager.fetches.length = 2 ∧
      (cluster 3).network.core.votedHashes.length = 1 := by
  have proposed : (fourDeployment.cluster.restrict Cluster.Keeping).Reachable
      afterTwoRounds := by
    refine .run (.initial rfl) ?_
    decide +kernel
  have reachable : (fourDeployment.cluster.restrict Cluster.Keeping).Reachable
      afterCatchUp := by
    refine proposed.run ?_
    decide +kernel
  have atRest : fourDeployment.AtRest afterCatchUp := by
    apply atRest_of_idle
    decide +kernel
  refine ⟨afterCatchUp, atRest, nothing_left_at_rest collisionFree
    four_wellConfigured reachable atRest, ?_, ?_⟩
  · decide +kernel
  · decide +kernel

end Hotstuff
