import Hotstuff.PricedTasks
import Hotstuff.ProposedHeights

/-!
# A group of replicas can come to rest

When nothing is proposed and no message is injected, the replicas of a group can
finish what they have to do for each other: as long as a thread of one of them
can take a step, one can take a step that succeeds, and after it a hash is
settled or the load of the group is smaller.

A run of such steps, in any order and with calls that fail, is a *settlement*
when nothing is left to do at its end.
-/

namespace Hotstuff

open Function (update)

section Settling

variable [WireTypes] [Externals]

/-- The hashes of the proposed blocks. -/
def Deployment.proposedHashes (deployment : Deployment) (state : SystemState) :
    Finset Hash :=
  deployment.config.ids.biUnion fun rid =>
    ((state rid).proposedWires.map fun wireBlock =>
      hashHeader wireBlock.header).toFinset

theorem Deployment.mem_proposedHashes {deployment : Deployment}
    {state : SystemState} {wireBlock : HotstuffBlockWire}
    (proposed : deployment.Proposed state wireBlock) :
    hashHeader wireBlock.header ∈ deployment.proposedHashes state := by
  obtain ⟨rid, member, sent⟩ := proposed
  exact Finset.mem_biUnion.mpr
    ⟨rid, member, List.mem_toFinset.mpr (List.mem_map_of_mem sent)⟩

/-! ### What a step of the cluster does to a replica -/

namespace Cluster

/-- Why the queues and the core of a replica take a step. -/
inductive Cause (deployment : Deployment) (cluster : Cluster)
    (rid : ReplicaID) : Label → NetworkEventQueue.Action → Prop
  | thread {action : NetworkEventQueue.Action}
      (isLocal : Cluster.isLocal action = true) :
      Cause deployment cluster rid (.thread rid action) action
  | own {event : HotstuffCore.Event}
      (first : (cluster rid).selfClient[(cluster rid).selfTaken]? =
        some event) :
      Cause deployment cluster rid (.selfEvent rid) (.own event)
  | sent {sender : ReplicaID}
      {action : HotstuffProtocolClient.Action Message} {message : Message}
      (outgoing : (cluster sender).outgoing rid action = some message) :
      Cause deployment cluster rid (.client sender rid action) message.toAction
  | fetched {peer : ReplicaID} {wireBlock : HotstuffBlockWire}
      (first : ((cluster rid).queues peer).worker.responses.head? =
        some wireBlock) :
      Cause deployment cluster rid (.worker rid peer .handOn)
        (.fetched wireBlock peer)
  | injected {message : Message}
      (authentic : deployment.Authentic cluster.cores message) :
      Cause deployment cluster rid (.inject rid message) message.toAction

variable {deployment : Deployment} {cluster : Cluster} {label : Label}
  {rid : ReplicaID}

theorem network_handle (process : Process)
    (action : NetworkEventQueue.Action) :
    (process.handle action).network = process.network ∨
      process.network.Enabled action ∧
        (process.handle action).network = process.network.next action := by
  unfold Process.handle
  split
  · rename_i enabled
    exact .inr ⟨enabled, rfl⟩
  · exact .inl rfl

/-- A delivery is dropped, or takes a step at the replica. -/
theorem network_deliver (cluster : Cluster) (rid target : ReplicaID)
    (action : NetworkEventQueue.Action) :
    (cluster.deliver target action rid).network = (cluster rid).network ∨
      target = rid ∧ (cluster rid).network.Enabled action ∧
        (cluster.deliver target action rid).network =
          (cluster rid).network.next action := by
  by_cases same : rid = target
  · subst same
    rw [deliver, Function.update_self]
    exact (network_handle (cluster rid) action).imp_right (.intro rfl)
  · rw [deliver, Function.update_of_ne same]
    exact .inl rfl

omit [Externals] in
theorem network_replace {process : Process} {mover : ReplicaID}
    (sameNetwork : process.network = (cluster mover).network)
    (rid : ReplicaID) :
    (update cluster mover process rid).network = (cluster rid).network := by
  by_cases same : rid = mover
  · rw [same, Function.update_self, sameNetwork]
  · rw [Function.update_of_ne same]

/-- A step leaves the queues and the core of a replica as they are, or takes one
of their steps. -/
theorem network_next (collisionFree : CollisionFree)
    (configured : deployment.WellConfigured)
    (sound : cluster.Sound deployment)
    (allowed : deployment.Allowed cluster label) (rid : ReplicaID) :
    (cluster.next label rid).network = (cluster rid).network ∨
      ∃ action, Cause deployment cluster rid label action ∧
        (cluster rid).network.Enabled action ∧
        (cluster.next label rid).network =
          (cluster rid).network.next action := by
  cases label with
  | thread mover action =>
      obtain ⟨member, isLocal, enabled⟩ := allowed
      by_cases same : rid = mover
      · subst same
        refine .inr ⟨action, .thread isLocal, enabled, ?_⟩
        rw [Cluster.next, Function.update_self]
        rfl
      · rw [Cluster.next, Function.update_of_ne same]
        exact .inl rfl
  | selfEvent mover =>
      obtain ⟨member, -, -, untaken⟩ := allowed
      by_cases same : rid = mover
      · subst same
        have first := List.getElem?_eq_getElem untaken
        have enabled := sound.enabled_selfEvent collisionFree configured member
          (List.getElem_mem untaken)
        refine .inr ⟨_, .own first, enabled, ?_⟩
        rw [Cluster.next, Function.update_self, Process.takeSelfEvent, first]
        rfl
      · rw [Cluster.next, Function.update_of_ne same]
        exact .inl rfl
  | client sender peer action =>
      have moved (rid : ReplicaID) : (update cluster sender
          ((cluster sender).stepClient peer action) rid).network =
            (cluster rid).network := by
        apply network_replace
        rfl
      rw [Cluster.next]
      cases outgoing : (cluster sender).outgoing peer action with
      | none => exact .inl (moved rid)
      | some message =>
        rcases network_deliver (update cluster sender
            ((cluster sender).stepClient peer action)) rid peer
            message.toAction with same | ⟨rfl, enabled, result⟩
        · exact .inl (same.trans (moved rid))
        · rw [moved peer] at enabled result
          exact .inr ⟨_, .sent outgoing, enabled, result⟩
  | worker mover peer action =>
      have moved (rid : ReplicaID) : (update cluster mover
          ((cluster mover).stepWorker peer action) rid).network =
            (cluster rid).network := by
        apply network_replace
        rfl
      rw [Cluster.next]
      cases handed : (cluster mover).handedOn peer action with
      | none => exact .inl (moved rid)
      | some wireBlock =>
        rcases network_deliver (update cluster mover
            ((cluster mover).stepWorker peer action)) rid mover
            (.fetched wireBlock peer) with same | ⟨rfl, enabled, result⟩
        · exact .inl (same.trans (moved rid))
        · rw [moved mover] at enabled result
          cases action with
          | handOn => exact .inr ⟨_, .fetched handed, enabled, result⟩
          | _ => cases handed
  | inject target message =>
      rcases network_deliver cluster rid target message.toAction with
        same | ⟨rfl, enabled, result⟩
      · exact .inl same
      · exact .inr ⟨_, .injected allowed.2, enabled, result⟩

/-! ### Nothing is proposed -/

/-- The steps of a group of replicas for each other. -/
def Settling (replicas : Finset ReplicaID) (_ : Cluster) (label : Label) :
    Prop :=
  label.isInternal = true ∧ label.Among replicas

/-- No call fails. -/
def Label.succeeds : Label → Bool
  | .client _ _ action => ClientRun.succeeds action
  | .worker _ _ action => WorkerRun.succeeds action
  | .thread _ _ | .selfEvent _ | .inject _ _ => true

/-- Where a call may fail, it may also succeed. -/
theorem exists_succeeds {replicas : Finset ReplicaID}
    (settling : cluster.Settling replicas label)
    (allowed : deployment.Allowed cluster label) :
    ∃ label, cluster.Settling replicas label ∧
      deployment.Allowed cluster label ∧ label.succeeds = true := by
  cases label with
  | thread | selfEvent => exact ⟨_, settling, allowed, rfl⟩
  | inject => cases settling.1
  | client rid peer action =>
      cases action with
      | submit | stop => exact allowed.2.2.elim
      | wake | start | enter => exact ⟨_, settling, allowed, rfl⟩
      | tryOpen =>
          exact ⟨.client rid peer (.tryOpen true), settling, allowed, rfl⟩
      | call =>
          exact ⟨.client rid peer (.call .answered), settling, allowed, rfl⟩
  | worker rid peer action =>
      cases action with
      | addRequest | stop => exact allowed.2.2.elim
      | wake | enter | handOn => exact ⟨_, settling, allowed, rfl⟩
      | tryOpen =>
          exact ⟨.worker rid peer (.tryOpen true), settling, allowed, rfl⟩
      | call outcome responses =>
          exact ⟨.worker rid peer (.call .answered responses), settling,
            allowed, rfl⟩

/-- The events that a replica has sent to itself are votes and proposals. -/
theorem Sound.unminted (sound : cluster.Sound deployment)
    {event : HotstuffCore.Event} (own : event ∈ (cluster rid).selfClient)
    (core : HotstuffCore) : core.newProposals event = [] := by
  rw [(sound.processes rid).selfClient] at own
  obtain ⟨effect, -, toSelf⟩ := List.mem_filterMap.mp own
  cases effect with
  | doVote p cert target =>
      simp only [Effect.toSelf] at toSelf
      split at toSelf <;> cases toSelf
      rfl
  | broadcastProposal p wireBlock =>
      cases toSelf
      rfl
  | _ => cases toSelf

omit [Externals] in
/-- An own event comes from the replica itself or is one of its threads. -/
theorem Cause.own_cases {action : NetworkEventQueue.Action}
    (cause : Cause deployment cluster rid label action)
    {event : HotstuffCore.Event} (isOwn : action = .own event) :
    event ∈ (cluster rid).selfClient ∨
      label = .thread rid (.own event) ∧ Cluster.isLocal (.own event) = true := by
  cases cause with
  | thread isLocal =>
      subst isOwn
      exact .inr ⟨rfl, isLocal⟩
  | own first =>
      cases isOwn
      exact .inl (List.mem_of_getElem? first)
  | @sent sender clientAction message =>
      cases message <;> cases isOwn
  | fetched => cases isOwn
  | @injected message =>
      cases message <;> cases isOwn

omit [Externals] in
theorem Cause.mem_selfClient {action : NetworkEventQueue.Action}
    (cause : Cause deployment cluster rid label action)
    (internal : label.isInternal = true) {event : HotstuffCore.Event}
    (isOwn : action = .own event) : event ∈ (cluster rid).selfClient := by
  refine (cause.own_cases isOwn).resolve_right ?_
  rintro ⟨rfl, -⟩
  cases internal

section Steps

variable (collisionFree : CollisionFree)
  (configured : deployment.WellConfigured)

include collisionFree configured

/-- A step of a core that is not a proposal. -/
theorem core_next (sound : cluster.Sound deployment)
    (allowed : deployment.Allowed cluster label)
    (internal : label.isInternal = true) (rid : ReplicaID) :
    (cluster.next label).cores rid = cluster.cores rid ∨
      ∃ event, (cluster.cores rid).Enabled event ∧
        (cluster.cores rid).newProposals event = [] ∧
        (cluster.next label).cores rid = (cluster.cores rid).step event := by
  rcases network_next collisionFree configured sound allowed rid with
    same | ⟨action, cause, enabled, result⟩
  · exact .inl (congrArg NetworkEventQueue.core same)
  have attended := (sound.processes rid).attended
  have coreEq := congrArg NetworkEventQueue.core result
  rcases attended.core_next enabled with
    same | ⟨event, coreEnabled, stepEq, hands⟩
  · exact .inl (coreEq.trans same)
  refine .inr ⟨event, coreEnabled, ?_, coreEq.trans stepEq⟩
  cases event with
  | doPropose | doEmptyPropose =>
      exact sound.unminted (cause.mem_selfClient internal hands) _
  | _ => rfl

theorem proposedWires_next (sound : cluster.Sound deployment)
    (allowed : deployment.Allowed cluster label)
    (internal : label.isInternal = true) (rid : ReplicaID) :
    ((cluster.next label).cores rid).proposedWires =
      (cluster.cores rid).proposedWires := by
  rcases core_next collisionFree configured sound allowed internal rid with
    same | ⟨event, -, unminted, result⟩
  · rw [same]
  · obtain ⟨abstract, tracks⟩ :=
      tracks_of_reachable collisionFree configured sound.cores rid
    rw [result, (tracks.valid.anchored.sends_step event).proposedWires,
      unminted]
    rfl

end Steps

/-! ### The load of a group -/

/-- What the replicas of a group have to do for each other. -/
def load (height : Hash → Nat) (replicas : Finset ReplicaID)
    (cluster : Cluster) : Nat :=
  ∑ rid ∈ replicas, (cluster rid).load height replicas rid

/-- In how many places events may still be parked. -/
def unsettled (hashes : Finset Hash) (replicas : Finset ReplicaID)
    (cluster : Cluster) : Nat :=
  ∑ rid ∈ replicas, ((cluster rid).network.unsettledHashes hashes).card

section Load

variable {height : Hash → Nat} {replicas : Finset ReplicaID}
  {peer : ReplicaID}

theorem load_replace (height : Hash → Nat) (cluster : Cluster)
    (member : rid ∈ replicas) (process : Process) :
    load height replicas (update cluster rid process) +
        (cluster rid).load height replicas rid =
      load height replicas cluster + process.load height replicas rid :=
  sum_update (fun rid process => process.load height replicas rid) member
    cluster process

variable (collisionFree : CollisionFree)
  (configured : deployment.WellConfigured) (sound : cluster.Sound deployment)

include collisionFree configured sound

theorem Sound.anchored (rid : ReplicaID) : (cluster.cores rid).Anchored := by
  obtain ⟨abstract, tracks⟩ :=
    tracks_of_reachable collisionFree configured sound.cores rid
  exact tracks.valid.anchored

theorem Sound.sameId (rid : ReplicaID) : (cluster.cores rid).selfId = rid := by
  obtain ⟨abstract, tracks⟩ :=
    tracks_of_reachable collisionFree configured sound.cores rid
  exact tracks.sameId

theorem Sound.own_bound (rid : ReplicaID) {p : BlockPtr} {proposer : ReplicaID}
    (own : .proposal p proposer ∈ (cluster rid).selfClient) :
    p < (cluster.cores rid).store.heap.length := by
  rw [(sound.processes rid).selfClient] at own
  obtain ⟨effect, sent, toSelf⟩ := List.mem_filterMap.mp own
  cases effect with
  | doVote q cert target =>
      simp only [Effect.toSelf] at toSelf
      split at toSelf <;> cases toSelf
  | broadcastProposal q wireBlock =>
      cases toSelf
      have issued := (genuine_of_reachable collisionFree configured
        sound.cores).issued rid
      exact BlockStore.WellFormed.lt_of_linked
        (issued.proposals p wireBlock (List.mem_reverse.mp sent)).1
  | _ => cases toSelf

theorem load_selfEvent (member : rid ∈ replicas)
    (allowed : deployment.Allowed cluster (.selfEvent rid)) :
    load height replicas (cluster.next (.selfEvent rid)) <
      load height replicas cluster := by
  obtain ⟨inside, -, -, untaken⟩ := allowed
  have less := Process.load_takeSelfEvent (sound.processes rid)
    (sound.anchored collisionFree configured rid)
    (sound.sameId collisionFree configured rid)
    (fun _ _ => sound.own_bound collisionFree configured rid) height replicas
    untaken
    (fun _ => sound.enabled_selfEvent collisionFree configured inside)
    (fun _ own => sound.unminted own _)
  have replaced := load_replace height cluster member
    (cluster rid).takeSelfEvent
  rw [Cluster.next]
  omega

theorem load_client (member : rid ∈ replicas) (peerMember : peer ∈ replicas)
    {action : HotstuffProtocolClient.Action Message}
    (allowed : deployment.Allowed cluster (.client rid peer action))
    (success : ClientRun.succeeds action = true) :
    load height replicas (cluster.next (.client rid peer action)) <
      load height replicas cluster := by
  obtain ⟨⟨-, -, different⟩, enabled, -⟩ := allowed
  obtain ⟨client, live⟩ := (sound.processes rid).clients peer
  have inside : peer ∈ replicas.erase rid :=
    Finset.mem_erase.mpr ⟨different, peerMember⟩
  let process := (cluster rid).stepClient peer action
  let moved : Cluster := update cluster rid process
  have replaced : load height replicas moved + _ = _ :=
    load_replace height cluster member process
  have stepped : process.load height replicas rid + _ = _ :=
    (cluster rid).load_stepClient height inside action
  by_cases isCall : action = .call .answered
  · subst isCall
    have busy : ((cluster rid).otherClients peer).client.rpc.isBusy = true := by
      rw [NonblockingRpcClient.isBusy, enabled]
    obtain ⟨message, rest, todo⟩ :=
      List.exists_cons_of_ne_nil (client.holds.working busy)
    have first : ((cluster rid).otherClients peer).client.todo.head? =
        some message := by
      rw [todo]
      rfl
    have outgoing : (cluster rid).outgoing peer (.call .answered) =
        some message := by
      unfold Process.outgoing
      dsimp only
      rw [client.holds.rpc.connected enabled live]
      exact first
    have samePeer : moved peer = cluster peer :=
      Function.update_of_ne different _ _
    have answered := ClientRun.load_answered height client live enabled first
    have handled := Process.load_handle_message (sound.processes peer)
      (sound.sameId collisionFree configured peer)
      (fun _ _ => sound.own_bound collisionFree configured peer) height replicas
      message
    have delivered := load_replace height moved peerMember
      ((moved peer).handle message.toAction)
    have nextEq : cluster.next (.client rid peer (.call .answered)) =
        update moved peer ((moved peer).handle message.toAction) := by
      rw [Cluster.next, outgoing]
      rfl
    rw [nextEq]
    rw [samePeer] at delivered ⊢
    omega
  · have noCall (outcome : CallOutcome) : action ≠ .call outcome := by
      rintro rfl
      exact isCall (congrArg _ (eq_of_beq success))
    have outgoing : (cluster rid).outgoing peer action = none := by
      cases action with
      | call outcome => exact (noCall outcome rfl).elim
      | _ => rfl
    have less := ClientRun.load_next height client live enabled success noCall
    have nextEq : cluster.next (.client rid peer action) = moved := by
      rw [Cluster.next, outgoing]
    rw [nextEq]
    omega

/-- The answer to a request costs no more than the request. -/
theorem cost_fetch (height : Hash → Nat) (peer : ReplicaID)
    (reqs : List Hash) :
    (((cluster.cores peer).store.fetch reqs).map fun wireBlock =>
        requestCost height (hashHeader wireBlock.header)).sum ≤
      (reqs.map (requestCost height)).sum := by
  have genesis := (genuine_of_reachable collisionFree configured
    sound.cores).genesis peer
  have tree : (cluster.cores peer).store.WellFormed :=
    (sound.processes peer).attended.tree
  have hashes := BlockStore.map_fetch tree genesis reqs
  have costs : ((cluster.cores peer).store.fetch reqs).map
      (fun wireBlock => requestCost height (hashHeader wireBlock.header)) =
        (reqs.filter (cluster.cores peer).store.isInMemory).map
          (requestCost height) := by
    rw [← hashes, List.map_map]
    rfl
  rw [costs]
  exact (List.filter_sublist.map _).sum_le_sum fun _ _ => Nat.zero_le _

theorem load_worker (member : rid ∈ replicas) (peerMember : peer ∈ replicas)
    {action : BlockFetchWorker.Action}
    (allowed : deployment.Allowed cluster (.worker rid peer action))
    (success : WorkerRun.succeeds action = true) :
    load height replicas (cluster.next (.worker rid peer action)) <
      load height replicas cluster := by
  obtain ⟨worker, live⟩ := (sound.processes rid).workers peer
  have stepSound := sound.stepWorker collisionFree configured allowed
  obtain ⟨-, enabled, answers⟩ := allowed
  let process := (cluster rid).stepWorker peer action
  let moved : Cluster := update cluster rid process
  have replaced : load height replicas moved + _ = _ :=
    load_replace height cluster member process
  have stepped : process.load height replicas rid + _ = _ :=
    (cluster rid).load_stepWorker height peerMember action
  by_cases isHandOn : action = .handOn
  · subst isHandOn
    obtain ⟨wireBlock, rest, responses⟩ :=
      List.exists_cons_of_ne_nil enabled.2
    have first : ((cluster rid).queues peer).worker.responses.head? =
        some wireBlock := by
      rw [responses]
      rfl
    have paid := WorkerRun.load_handOn height first
    have handled := Process.load_handle_fetched stepSound
      (sound.sameId collisionFree configured rid)
      (fun _ _ => sound.own_bound collisionFree configured rid) height replicas
      wireBlock peer
    have sameProcess : moved rid = process := Function.update_self _ _ _
    have delivered := load_replace height moved member
      ((moved rid).handle (.fetched wireBlock peer))
    have nextEq : cluster.next (.worker rid peer .handOn) =
        update moved rid ((moved rid).handle (.fetched wireBlock peer)) := by
      rw [Cluster.next, show (cluster rid).handedOn peer .handOn =
        some wireBlock from first]
      rfl
    rw [nextEq]
    rw [sameProcess] at delivered ⊢
    change (process.handle _).load height replicas rid < process.load height
      replicas rid + _ at handled
    omega
  · have handed : (cluster rid).handedOn peer action = none := by
      cases action with
      | handOn => exact (isHandOn rfl).elim
      | _ => rfl
    have less := WorkerRun.load_next height worker live enabled success isHandOn
      (by
        rintro outcome responses rfl
        rw [answers]
        exact cost_fetch collisionFree configured sound height peer _)
    have nextEq : cluster.next (.worker rid peer action) = moved := by
      rw [Cluster.next, handed]
    rw [nextEq]
    omega

theorem unsettled_next (hashes : Finset Hash)
    (allowed : deployment.Allowed cluster label) (rid : ReplicaID) :
    (cluster.next label rid).network.unsettledHashes hashes ⊆
      (cluster rid).network.unsettledHashes hashes := by
  rcases network_next collisionFree configured sound allowed rid with
    same | ⟨action, -, enabled, result⟩
  · rw [same]
  · rw [result]
    exact (sound.processes rid).attended.unsettledHashes_next hashes enabled

/-- The block of every event was proposed. -/
theorem Sound.hash_proposed {event : NetEvent}
    (arrived : event ∈ (cluster rid).network.received) {p : BlockPtr}
    {source : ReplicaID} (brings : event.Brings p source) :
    ∃ wireBlock, deployment.Proposed cluster.cores wireBlock ∧
      (cluster.cores rid).store.hash p = hashHeader wireBlock.header := by
  have attended := (sound.processes rid).attended
  obtain ⟨notGenesis, bound⟩ := NetworkEventQueue.NetEvent.Brings.known brings
    (attended.known event arrived)
  obtain ⟨wireBlock, proposed, headerEq⟩ := deployment.header_proposed
    collisionFree configured sound.cores rid notGenesis bound
  refine ⟨wireBlock, proposed, ?_⟩
  rw [← headerEq]
  exact (attended.tree.hashed p notGenesis bound).1

/-- The blocks that a block names are lower. -/
theorem Sound.descends {event : NetEvent}
    (arrived : event ∈ (cluster rid).network.received) :
    (cluster rid).network.Descends (headerForest collisionFree).height
      event := by
  intro p source brings hash missing
  have attended := (sound.processes rid).attended
  obtain ⟨notGenesis, bound⟩ := NetworkEventQueue.NetEvent.Brings.known brings
    (attended.known event arrived)
  obtain ⟨wireBlock, proposed, hashEq⟩ :=
    sound.hash_proposed collisionFree configured arrived brings
  have names := attended.tree.names_dependency notGenesis bound
    (BlockStore.mem_missing.mp missing).1
  change (cluster rid).network.core.store.hash p = _ at hashEq
  rw [hashEq] at names ⊢
  exact deployment.names_lower collisionFree configured sound.cores proposed
    names

/-- In a step of a thread a hash is settled, or the load gets smaller. -/
theorem load_thread {hashes : Finset Hash}
    (hashesEq : hashes = deployment.proposedHashes cluster.cores)
    (serviced : cluster.Serviced deployment) (member : rid ∈ replicas)
    {action : NetworkEventQueue.Action}
    (allowed : deployment.Allowed cluster (.thread rid action))
    (internal : Label.isInternal (.thread rid action) = true) :
    (cluster.next (.thread rid action) rid).network.unsettledHashes hashes ≠
        (cluster rid).network.unsettledHashes hashes ∨
      load (headerForest collisionFree).height replicas
          (cluster.next (.thread rid action)) <
        load (headerForest collisionFree).height replicas cluster := by
  obtain ⟨-, isLocal, enabled⟩ := allowed
  have process := sound.processes rid
  have sameId := sound.sameId collisionFree configured rid
  have own (p : BlockPtr) (proposer : ReplicaID)
      (inside : .proposal p proposer ∈ (cluster rid).selfClient) :=
    sound.own_bound collisionFree configured rid inside
  have replaced := load_replace (headerForest collisionFree).height cluster
    member ((cluster rid).act action)
  have moved : cluster.next (.thread rid action) =
      update cluster rid ((cluster rid).act action) := rfl
  cases action with
  | vote | propose | fetched => cases isLocal
  | own => cases internal
  | takeEvents =>
      have less := Process.load_takeEvents process sameId own
        (headerForest collisionFree).height replicas enabled
      rw [moved]
      omega
  | hotstuffEvent =>
      have less := Process.load_hotstuffEvent process
        (sound.anchored collisionFree configured rid) sameId own
        (headerForest collisionFree).height replicas enabled
      rw [moved]
      omega
  | handleEvent =>
      by_cases settled : ((cluster rid).network.next
        .handleEvent).unsettledHashes hashes =
          (cluster rid).network.unsettledHashes hashes
      swap
      · left
        rw [moved, Function.update_self]
        exact settled
      obtain ⟨event, rest, work⟩ := List.exists_cons_of_ne_nil
        (mt List.isEmpty_iff.mpr (by rw [enabled.2]; decide))
      have arrived : event ∈ (cluster rid).network.received := by
        apply process.attended.arrived event (.inl (.inl _))
        rw [GenericEventQueue.pending, work]
        exact List.mem_cons_self
      have proposed (p : BlockPtr) (source : ReplicaID)
          (brings : event.Brings p source) :
          (cluster rid).network.core.store.hash p ∈ hashes := by
        obtain ⟨wireBlock, proposed, hashEq⟩ :=
          sound.hash_proposed collisionFree configured arrived brings
        change (cluster rid).network.core.store.hash p = _ at hashEq
        rw [hashEq, hashesEq]
        exact Deployment.mem_proposedHashes proposed
      have less := Process.load_handleEvent process sameId own
        (headerForest collisionFree).height replicas work
        (serviced.processes rid).unmarked
        (sound.descends collisionFree configured arrived) proposed settled
      rw [moved]
      omega

/-- A step that succeeds settles a hash or makes the load smaller. -/
theorem lowers_next {hashes : Finset Hash}
    (hashesEq : hashes = deployment.proposedHashes cluster.cores)
    (serviced : cluster.Serviced deployment)
    (settling : cluster.Settling replicas label)
    (allowed : deployment.Allowed cluster label)
    (success : label.succeeds = true) :
    Prod.Lex (· < ·) (· < ·)
      (unsettled hashes replicas (cluster.next label),
        load (headerForest collisionFree).height replicas (cluster.next label))
      (unsettled hashes replicas cluster,
        load (headerForest collisionFree).height replicas cluster) := by
  obtain ⟨internal, among⟩ := settling
  have subset (rid : ReplicaID) :=
    unsettled_next collisionFree configured sound hashes allowed rid
  have fewer : unsettled hashes replicas (cluster.next label) ≤
      unsettled hashes replicas cluster :=
    Finset.sum_le_sum fun rid _ => Finset.card_le_card (subset rid)
  have cheaper (less : load (headerForest collisionFree).height replicas
      (cluster.next label) <
        load (headerForest collisionFree).height replicas cluster) :
      Prod.Lex (· < ·) (· < ·)
        (unsettled hashes replicas (cluster.next label),
          load (headerForest collisionFree).height replicas
            (cluster.next label))
        (unsettled hashes replicas cluster,
          load (headerForest collisionFree).height replicas cluster) := by
    rcases fewer.lt_or_eq with lower | same
    · exact .left _ _ lower
    · rw [same]
      exact .right _ less
  cases label with
  | inject => cases internal
  | selfEvent rid =>
      exact cheaper (load_selfEvent collisionFree configured sound among allowed)
  | client rid peer action =>
      exact cheaper (load_client collisionFree configured sound among.1 among.2
        allowed success)
  | worker rid peer action =>
      exact cheaper (load_worker collisionFree configured sound among.1 among.2
        allowed success)
  | thread rid action =>
      rcases load_thread collisionFree configured sound hashesEq serviced among
        allowed internal with changed | less
      · have strict := Finset.card_lt_card
          ((subset rid).ssubset_of_ne changed)
        exact .left _ _ (Finset.sum_lt_sum
          (fun rid _ => Finset.card_le_card (subset rid)) ⟨rid, among, strict⟩)
      · exact cheaper less

end Load

end Cluster

/-! ### Settlements -/

namespace Deployment

variable {deployment : Deployment} {cluster last : Cluster}
  {replicas : Finset ReplicaID} {bound : Nat}

/-- The replicas of a group have done all that they can do for each other. -/
def Settlement (deployment : Deployment) (replicas : Finset ReplicaID)
    (cluster last : Cluster) : Prop :=
  (deployment.cluster.restrict (Cluster.Settling replicas)).Leads cluster last ∧
    deployment.RestAmong replicas last

omit [Externals] in
/-- Steps for each other keep the blocks in memory. -/
theorem keeping_of_settling (cluster : Cluster) (label : Cluster.Label)
    (settling : cluster.Settling replicas label) : cluster.Keeping label := by
  cases label with
  | thread rid action =>
      cases action with
      | own => cases settling.1
      | _ => trivial
  | _ => trivial

section Reachable

variable
  (reachable : (deployment.cluster.restrict Cluster.Keeping).Reachable cluster)
  (leads : (deployment.cluster.restrict (Cluster.Settling replicas)).Leads
    cluster last)

include reachable leads

theorem reachable_of_settling :
    (deployment.cluster.restrict Cluster.Keeping).Reachable last :=
  reachable.leads (leads.restrict keeping_of_settling).of_restrict

omit reachable in
/-- What holds before a settlement and is kept by its steps holds at its end. -/
theorem settling_invariant (holds : Cluster → Prop) (base : holds cluster)
    (kept : ∀ middle label,
      (deployment.cluster.restrict (Cluster.Settling replicas)).Leads cluster
        middle →
      holds middle → deployment.cluster.enabled middle label →
      middle.Settling replicas label → holds (middle.next label)) :
    holds last :=
  leads.invariant holds base fun middle label leads held enabled =>
    kept middle label leads held enabled.1 enabled.2

/-- Nothing is proposed in a settlement. -/
theorem proposedWires_of_settling (collisionFree : CollisionFree)
    (configured : deployment.WellConfigured) (rid : ReplicaID) :
    (last.cores rid).proposedWires = (cluster.cores rid).proposedWires := by
  refine settling_invariant leads (fun last =>
    (last.cores rid).proposedWires = (cluster.cores rid).proposedWires) rfl ?_
  intro last label leads same enabled settling
  have sound := Cluster.sound_of_reachable collisionFree configured
    (reachable_of_settling reachable leads).of_restrict
  rw [Cluster.proposedWires_next collisionFree configured sound enabled.2
    settling.1 rid, same]

end Reachable

/-- A group of replicas can come to rest. -/
theorem exists_settlement (collisionFree : CollisionFree)
    (configured : deployment.WellConfigured)
    (reachable : (deployment.cluster.restrict Cluster.Keeping).Reachable
      cluster)
    (low : deployment.ProposedBelow collisionFree cluster.cores bound)
    (fits : bound < 2 ^ 32) :
    ∃ last, deployment.Settlement replicas cluster last := by
  let hashes := deployment.proposedHashes cluster.cores
  have wellFounded : WellFounded (Prod.Lex
      ((· < ·) : Nat → Nat → Prop) ((· < ·) : Nat → Nat → Prop)) :=
    (Prod.lex Nat.lt_wfRel Nat.lt_wfRel).wf
  refine TransitionSystem.exists_leads_final wellFounded (fun last =>
    (last.unsettled hashes replicas,
      last.load (headerForest collisionFree).height replicas))
    (deployment.RestAmong replicas) ?_
  intro last leads restless
  have same := proposedWires_of_settling reachable leads collisionFree configured
  have reached := reachable_of_settling reachable leads
  have sound := Cluster.sound_of_reachable collisionFree configured
    reached.of_restrict
  have serviced := Cluster.serviced_of_reachable collisionFree configured reached
  have hashesEq : hashes = deployment.proposedHashes last.cores := by
    simp only [hashes, proposedHashes, same]
  have stillLow : deployment.ProposedBelow collisionFree last.cores bound := by
    rintro wireBlock ⟨rid, member, sent⟩
    exact low wireBlock ⟨rid, member, same rid ▸ sent⟩
  obtain ⟨label, open_⟩ := not_forall.mp restless
  obtain ⟨internal, among, allowed⟩ : label.isInternal = true ∧
      label.Among replicas ∧ deployment.Allowed last label := by
    simpa using open_
  obtain ⟨label, settling, allowed, success⟩ :=
    Cluster.exists_succeeds ⟨internal, among⟩ allowed
  refine ⟨label, ⟨⟨?_, allowed⟩, settling⟩,
    Cluster.lowers_next collisionFree configured sound hashesEq serviced
      settling allowed success⟩
  intro rid _
  exact HotstuffCore.heightsFit_of_below (deployment.below_of_proposed
    collisionFree configured sound.cores stillLow rid) fits

end Deployment

end Settling

end Hotstuff
