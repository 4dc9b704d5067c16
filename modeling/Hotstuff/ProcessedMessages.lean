import Hotstuff.FreshEvents
import Hotstuff.ProcessedEvents

/-!
# What a cluster has processed

Proposals are known by the name of the replica that has minted the block, and
votes go to that replica.  Every event that has reached a core, from the network
or from the replica itself, has left its traces there.
-/

namespace Hotstuff

section Messages

variable [WireTypes] [Externals]

namespace HotstuffCore

variable {core after : HotstuffCore}

/-- What a replica keeps in all that it does: its blocks with their places and
proposers, and the record of what it has done. -/
structure Later (core after : HotstuffCore) : Prop where
  longer : core.store.Extends after.store
  origins : ∀ p < core.store.heap.length,
    origin (after.block p) = origin (core.block p)
  trace : core.trace <:+ after.trace

omit [Externals] in
theorem Later.refl (core : HotstuffCore) : Later core core :=
  ⟨.refl _, fun _ _ => rfl, List.suffix_rfl⟩

omit [Externals] in
theorem Later.trans {middle : HotstuffCore} (first : Later core middle)
    (second : Later middle after) : Later core after where
  longer := first.longer.trans second.longer
  origins := fun p inside =>
    (second.origins p (inside.trans_le first.longer.length)).trans
      (first.origins p inside)
  trace := first.trace.trans second.trace

omit [Externals] in
theorem Later.committed (later : Later core after) :
    core.committed <+: after.committed := by
  obtain ⟨effects, traceEq⟩ := later.trace
  exact committed_grows traceEq.symm

theorem Anchored.later_step (anchored : core.Anchored) {event : Event}
    (enabled : core.Enabled event) : Later core (core.step event) := by
  obtain ⟨effects, traceEq, -⟩ := anchored.trace_step event
  refine ⟨(grows_step anchored.tree enabled).2, ?_, effects, traceEq.symm⟩
  intro p inside
  rcases origin_step anchored.tree event p with same | ⟨new, -⟩
  · exact same
  · exact (Nat.ne_of_lt inside new).elim

end HotstuffCore

namespace Cluster

variable {deployment : Deployment} {cluster : Cluster} {label : Label}
  {rid : ReplicaID}

/-! ### Steps of the cores -/

theorem Cause.member {action : NetworkEventQueue.Action}
    (cause : Cause deployment cluster rid label action)
    (allowed : deployment.Allowed cluster label) :
    rid ∈ deployment.config.ids := by
  cases cause with
  | thread | own | injected => exact allowed.1
  | sent => exact allowed.1.2.1
  | fetched => exact allowed.1.1

section Steps

variable (collisionFree : CollisionFree)
  (configured : deployment.WellConfigured)

include collisionFree configured

/-- What a step of the cluster is to a core. -/
theorem core_cases (sound : cluster.Sound deployment)
    (allowed : deployment.Allowed cluster label) (rid : ReplicaID) :
    (cluster.next label).cores rid = cluster.cores rid ∨
      ∃ action event, Cause deployment cluster rid label action ∧
        (cluster rid).network.Enabled action ∧
        (cluster.next label rid).network =
          (cluster rid).network.next action ∧
        (cluster.cores rid).Enabled event ∧
        (cluster.next label).cores rid = (cluster.cores rid).step event ∧
        (cluster rid).network.Hands action event := by
  rcases network_next collisionFree configured sound allowed rid with
    same | ⟨action, cause, enabled, result⟩
  · exact .inl (congrArg NetworkEventQueue.core same)
  have coreEq := congrArg NetworkEventQueue.core result
  rcases (sound.processes rid).attended.core_next enabled with
    same | ⟨event, coreEnabled, stepEq, hands⟩
  · exact .inl (coreEq.trans same)
  · exact .inr ⟨action, event, cause, enabled, result, coreEnabled,
      coreEq.trans stepEq, hands⟩

theorem later_next (sound : cluster.Sound deployment)
    (allowed : deployment.Allowed cluster label) (rid : ReplicaID) :
    HotstuffCore.Later (cluster.cores rid) ((cluster.next label).cores rid) := by
  rcases core_cases collisionFree configured sound allowed rid with
    same | ⟨-, event, -, -, -, enabled, stepEq, -⟩
  · rw [same]
    exact .refl _
  · rw [stepEq]
    exact (sound.anchored collisionFree configured rid).later_step enabled

theorem sentBefore_next (sound : cluster.Sound deployment)
    (allowed : deployment.Allowed cluster label) :
    Deployment.SentBefore cluster.cores (cluster.next label).cores := by
  have sends (rid : ReplicaID) : ∃ votes proposals, HotstuffCore.Sends
      (cluster.cores rid) ((cluster.next label).cores rid) votes proposals := by
    rcases core_cases collisionFree configured sound allowed rid with
      same | ⟨-, event, -, -, -, -, stepEq, -⟩
    · rw [same]
      exact ⟨[], [], rfl, rfl, rfl, rfl, rfl⟩
    · rw [stepEq]
      exact ⟨_, _, (sound.anchored collisionFree configured rid).sends_step
        event⟩
  constructor
  · intro rid hash voted
    obtain ⟨votes, proposals, sends⟩ := sends rid
    rw [sends.votedHashes]
    exact List.mem_append_right _ voted
  · intro rid wireBlock proposed
    obtain ⟨votes, proposals, sends⟩ := sends rid
    rw [sends.proposedWires]
    exact List.mem_append_right _ proposed

end Steps

/-! ### Proposers -/

/-- Proposals arrive in the name of the replica that has minted the block, and
votes are sent to it. -/
structure Attributed (cluster : Cluster) : Prop where
  proposals : ∀ rid, ∀ event ∈ (cluster rid).network.received,
    ∀ p proposer, event.netEvent = .proposal p proposer →
      (cluster.cores proposer).MintedHeader
        ((cluster.cores rid).block p).wireBlock.header
  votes : ∀ rid p cert target,
    .doVote p cert target ∈ (cluster.cores rid).trace →
      (cluster.cores target).MintedHeader
        ((cluster.cores rid).block p).wireBlock.header

omit [Externals] in
theorem mintedHeader_of_broadcast {core : HotstuffCore} {p : BlockPtr}
    {wireBlock : HotstuffBlockWire}
    (sent : .broadcastProposal p wireBlock ∈ core.trace) :
    core.MintedHeader wireBlock.header :=
  ⟨wireBlock, List.mem_filterMap.mpr ⟨_, sent, rfl⟩, rfl⟩

theorem Sound.sent_of_selfProposal (sound : cluster.Sound deployment)
    {p : BlockPtr} {proposer : ReplicaID}
    (own : .proposal p proposer ∈ (cluster rid).selfClient) :
    proposer = rid ∧ ∃ wireBlock,
      .broadcastProposal p wireBlock ∈ (cluster.cores rid).trace := by
  rw [(sound.processes rid).selfClient] at own
  obtain ⟨effect, sent, toSelf⟩ := List.mem_filterMap.mp own
  cases effect with
  | doVote q cert target =>
      simp only [Effect.toSelf] at toSelf
      split at toSelf <;> cases toSelf
  | broadcastProposal q wireBlock =>
      cases toSelf
      exact ⟨rfl, wireBlock, List.mem_reverse.mp sent⟩
  | _ => cases toSelf

theorem Cause.proposed (sound : cluster.Sound deployment)
    (allowed : deployment.Allowed cluster label)
    {wireBlock : HotstuffBlockWire} {proposer : ReplicaID}
    {action : NetworkEventQueue.Action}
    (cause : Cause deployment cluster rid label action)
    (isPropose : action = .propose wireBlock proposer) :
    wireBlock ∈ (cluster.cores proposer).proposedWires := by
  cases cause with
  | thread isLocal =>
      subst isPropose
      cases isLocal
  | own | fetched => cases isPropose
  | @sent sender clientAction message outgoing =>
      have submitted := (sound.processes sender).outgoing allowed.2.1 outgoing
      rw [(sound.processes sender).submitted rid] at submitted
      obtain ⟨effect, sent, toPeer⟩ := List.mem_filterMap.mp submitted
      cases message <;> cases isPropose
      cases effect with
      | doVote q cert target =>
          simp only [Effect.toPeer] at toPeer
          split at toPeer <;> cases toPeer
      | broadcastProposal q wireBlock =>
          cases toPeer
          exact List.mem_filterMap.mpr ⟨_, List.mem_reverse.mp sent, rfl⟩
      | _ => cases toPeer
  | @injected message authentic =>
      cases message <;> cases isPropose
      exact authentic.2

section Steps

variable (collisionFree : CollisionFree)
  (configured : deployment.WellConfigured)

include collisionFree configured

/-- The block of a proposal that reaches the core was minted by the
proposer. -/
theorem Attributed.handed (attributed : cluster.Attributed)
    (sound : cluster.Sound deployment) {action : NetworkEventQueue.Action}
    (cause : Cause deployment cluster rid label action) {p : BlockPtr}
    {proposer : ReplicaID}
    (hands : (cluster rid).network.Hands action (.proposal p proposer)) :
    (cluster.cores proposer).MintedHeader
      ((cluster.cores rid).block p).wireBlock.header := by
  rcases hands with isOwn | ⟨-, event, arrived, -, isProposal, -⟩
  · have own := (cause.own_cases isOwn).resolve_right fun both => by
      cases both.2
    obtain ⟨rfl, wireBlock, sent⟩ := sound.sent_of_selfProposal own
    have issued := (genuine_of_reachable collisionFree configured
      sound.cores).issued proposer
    rw [(issued.proposals p wireBlock sent).2]
    exact mintedHeader_of_broadcast sent
  · exact attributed.proposals rid event arrived p proposer isProposal

theorem Attributed.next (attributed : cluster.Attributed)
    (sound : cluster.Sound deployment)
    (allowed : deployment.Allowed cluster label) :
    (cluster.next label).Attributed := by
  have before := sentBefore_next collisionFree configured sound allowed
  have minted {proposer : ReplicaID} {header : HotstuffBlockHeader}
      (header' : HotstuffBlockHeader) (same : header' = header)
      (minted : (cluster.cores proposer).MintedHeader header) :
      ((cluster.next label).cores proposer).MintedHeader header' := by
    obtain ⟨wireBlock, proposed, headerEq⟩ := minted
    exact ⟨wireBlock, before.proposedWires _ _ proposed,
      headerEq.trans same.symm⟩
  have kept (rid : ReplicaID) {p : BlockPtr}
      (inside : p < (cluster.cores rid).store.heap.length) :
      (((cluster.next label).cores rid).block p).wireBlock.header =
        ((cluster.cores rid).block p).wireBlock.header :=
    ((later_next collisionFree configured sound allowed rid).longer.identity p
      inside).2.1
  constructor
  case proposals =>
    intro rid event arrived p proposer isProposal
    have attended := (sound.processes rid).attended
    have old (arrived : event ∈ (cluster rid).network.received) := minted _
      (kept rid (NetworkEventQueue.NetEvent.Brings.known (.inl isProposal)
        (attended.known event arrived)).2)
      (attributed.proposals rid event arrived p proposer isProposal)
    rcases network_next collisionFree configured sound allowed rid with
      same | ⟨action, cause, enabled, result⟩
    · rw [same] at arrived
      exact old arrived
    rw [result, attended.received_next] at arrived
    rcases List.mem_append.mp arrived with before | arrives
    · exact old before
    cases action with
    | propose wireBlock sender =>
        rw [List.mem_singleton.mp arrives] at isProposal
        obtain ⟨rfl, rfl⟩ := NetEventVariant.proposal.inj isProposal
        refine minted _ ?_
          ⟨wireBlock, cause.proposed sound allowed rfl, rfl⟩
        rw [cores, result]
        exact ((cluster rid).network.block_receiveBlock wireBlock sender).1
    | vote | fetched =>
        rw [List.mem_singleton.mp arrives] at isProposal
        cases isProposal
    | _ => cases arrives
  case votes =>
    intro rid p cert target voted
    have anchored := sound.anchored collisionFree configured rid
    have old (voted : .doVote p cert target ∈ (cluster.cores rid).trace) :=
      minted _ (kept rid (anchored.tree.lt_of_placed
        (anchored.votedPlaced p cert target voted).1))
        (attributed.votes rid p cert target voted)
    rcases core_cases collisionFree configured sound allowed rid with
      same | ⟨action, event, cause, -, -, enabled, stepEq, hands⟩
    · rw [same] at voted
      exact old voted
    rw [stepEq] at voted
    rcases anchored.sent_step voted rfl with before | new
    · exact old before
    cases event with
    | proposal q proposer =>
        rw [HotstuffCore.newlySent] at new
        split at new
        · obtain ⟨rfl, -, rfl⟩ := Effect.doVote.inj (List.mem_singleton.mp new)
          exact minted _ (kept rid (anchored.tree.lt_of_placed
            (anchored.placed_of_height enabled.2.1)))
            (attributed.handed collisionFree configured sound cause hands)
        · cases new
    | doPropose | doEmptyPropose => cases List.mem_singleton.mp new
    | _ => cases new

theorem attributed_of_reachable
    (reachable : deployment.cluster.Reachable cluster) :
    cluster.Attributed := by
  refine reachable.invariant Attributed ?_ ?_
  · rintro start rfl
    constructor
    · intro rid event arrived
      cases arrived
    · intro rid p cert target voted
      cases voted
  · intro cluster label reached attributed enabled
    exact attributed.next collisionFree configured
      (sound_of_reachable collisionFree configured reached) enabled.2

end Steps

end Cluster

/-! ### Processed events -/

namespace NetworkEventQueue

variable {network : NetworkEventQueue}

theorem next_hotstuffEvent {entry : NetEvent × HotstuffEvent}
    (found : network.hotstuffEventQueue[network.taken]? = some entry) :
    network.next .hotstuffEvent =
      { network with
        core := network.core.step entry.2.toCore
        taken := network.taken + 1 } := by
  simp only [NetworkEventQueue.next, NetworkEventQueue.takeHotstuffEvent, found]

/-- The entry of the hotstuff queue that reaches the core in a step. -/
def taking (network : NetworkEventQueue) :
    Action → List (NetEvent × HotstuffEvent)
  | .hotstuffEvent => network.hotstuffEventQueue[network.taken]?.toList
  | _ => []

theorem Attended.processed_next (attended : network.Attended [])
    (inside : network.taken ≤ network.hotstuffEventQueue.length)
    (action : Action) :
    (network.next action).taken ≤
        (network.next action).hotstuffEventQueue.length ∧
      (network.next action).processed =
        network.processed ++ network.taking action := by
  have longer {after : NetworkEventQueue}
      (queue : network.hotstuffEventQueue <+: after.hotstuffEventQueue)
      (taken : network.taken = after.taken) :
      after.taken ≤ after.hotstuffEventQueue.length ∧
        after.processed = network.processed ++ [] := by
    obtain ⟨new, queueEq⟩ := queue
    rw [← taken, processed, processed, ← queueEq, ← taken,
      List.take_append_of_le_length inside, List.append_nil, List.length_append]
    exact ⟨inside.trans (Nat.le_add_right _ _), rfl⟩
  cases action with
  | vote | propose | fetched | takeEvents | own =>
      exact longer List.prefix_rfl rfl
  | handleEvent =>
      cases work : network.queue.workList with
      | nil =>
          rw [NetworkEventQueue.next, NetworkEventQueue.handleEvent, work]
          exact longer List.prefix_rfl rfl
      | cons event rest =>
          obtain ⟨queue, taken⟩ := (attended.handleEvent work).queue_grows
          exact longer queue taken
  | hotstuffEvent =>
      cases found : network.hotstuffEventQueue[network.taken]? with
      | none =>
          have unchanged : network.next .hotstuffEvent = network := by
            simp only [NetworkEventQueue.next,
              NetworkEventQueue.takeHotstuffEvent, found]
          rw [unchanged, taking, found]
          exact ⟨inside, (List.append_nil _).symm⟩
      | some entry =>
          obtain ⟨bound, -⟩ := List.getElem?_eq_some_iff.mp found
          rw [next_hotstuffEvent found, taking, found, processed, processed,
            List.take_add_one, found]
          exact ⟨bound, rfl⟩

end NetworkEventQueue

namespace Cluster

variable {deployment : Deployment} {cluster : Cluster} {label : Label}
  {rid : ReplicaID}

/-- The events that a replica has sent itself and that have reached its core. -/
def ownProcessed (cluster : Cluster) (rid : ReplicaID) :
    List HotstuffCore.Event :=
  (cluster rid).selfClient.take (cluster rid).selfTaken

/-- All that has reached a core is done. -/
structure Heeded (configured : deployment.WellConfigured)
    (collisionFree : CollisionFree) (cluster : Cluster) : Prop where
  taken : ∀ rid, (cluster rid).network.taken ≤
    (cluster rid).network.hotstuffEventQueue.length
  selfTaken : ∀ rid, (cluster rid).selfTaken ≤ (cluster rid).selfClient.length
  entries : ∀ rid, ∀ entry ∈ (cluster rid).network.processed,
    (cluster.cores rid).Done configured collisionFree entry.2.toCore
  own : ∀ rid, ∀ event ∈ cluster.ownProcessed rid,
    (cluster.cores rid).Done configured collisionFree event

omit [Externals] in
theorem selfTaken_update {process : Process} {mover : ReplicaID}
    (same : process.selfTaken = (cluster mover).selfTaken) {rid : ReplicaID} :
    (Function.update cluster mover process rid).selfTaken =
      (cluster rid).selfTaken := by
  by_cases isMover : rid = mover
  · rw [isMover, Function.update_self, same]
  · rw [Function.update_of_ne isMover]

theorem selfTaken_deliver (cluster : Cluster) (target : ReplicaID)
    (action : NetworkEventQueue.Action) (rid : ReplicaID) :
    (cluster.deliver target action rid).selfTaken =
      (cluster rid).selfTaken := by
  apply selfTaken_update
  unfold Process.handle
  split <;> rfl

/-- The replica takes an own event in one kind of step only. -/
theorem selfTaken_next (cluster : Cluster) (label : Label) (rid : ReplicaID) :
    (cluster.next label rid).selfTaken = (cluster rid).selfTaken ∨
      ∃ event, label = .selfEvent rid ∧
        (cluster rid).selfClient[(cluster rid).selfTaken]? = some event ∧
        (cluster.next label rid).selfTaken = (cluster rid).selfTaken + 1 ∧
        (cluster.next label).cores rid = (cluster.cores rid).step event := by
  cases label with
  | thread mover action =>
      left
      apply selfTaken_update
      rfl
  | selfEvent mover =>
      by_cases isMover : rid = mover
      swap
      · left
        rw [Cluster.next, Function.update_of_ne isMover]
      subst isMover
      cases first : (cluster rid).selfClient[(cluster rid).selfTaken]? with
      | none =>
          left
          rw [Cluster.next, Function.update_self, Process.takeSelfEvent, first]
      | some event =>
          right
          refine ⟨event, rfl, rfl, ?_, ?_⟩
          · rw [Cluster.next, Function.update_self, Process.takeSelfEvent, first]
            rfl
          · rw [cores, Cluster.next, Function.update_self,
              Process.takeSelfEvent, first]
            rfl
  | client mover peer action =>
      left
      rw [Cluster.next]
      cases (cluster mover).outgoing peer action with
      | none =>
          apply selfTaken_update
          rfl
      | some message =>
          apply (selfTaken_deliver _ _ _ _).trans
          apply selfTaken_update
          rfl
  | worker mover peer action =>
      left
      rw [Cluster.next]
      cases (cluster mover).handedOn peer action with
      | none =>
          apply selfTaken_update
          rfl
      | some wireBlock =>
          apply (selfTaken_deliver _ _ _ _).trans
          apply selfTaken_update
          rfl
  | inject target message =>
      left
      exact selfTaken_deliver cluster target message.toAction rid

section Steps

variable (collisionFree : CollisionFree)
  (configured : deployment.WellConfigured) (sound : cluster.Sound deployment)
  (enabled : deployment.cluster.enabled cluster label)

include collisionFree configured sound enabled

/-- What a replica sends itself comes after what it has sent before. -/
theorem selfClient_next (rid : ReplicaID) :
    (cluster rid).selfClient <+: (cluster.next label rid).selfClient := by
  have sound' := sound.next collisionFree configured enabled
  rw [(sound.processes rid).selfClient, (sound'.processes rid).selfClient]
  change (cluster.cores rid).trace.reverse.filterMap _ <+:
    ((cluster.next label).cores rid).trace.reverse.filterMap _
  rcases core_cases collisionFree configured sound enabled.2 rid with
    same | ⟨-, event, -, -, -, -, stepEq, -⟩
  · rw [same]
  · obtain ⟨effects, traceEq, -⟩ :=
      (sound.anchored collisionFree configured rid).trace_step event
    rw [stepEq, traceEq, List.reverse_append, List.filterMap_append]
    exact List.prefix_append _ _

/-- What was done stays done. -/
theorem done_next (rid : ReplicaID) {event : HotstuffCore.Event}
    (done : (cluster.cores rid).Done configured collisionFree event) :
    ((cluster.next label).cores rid).Done configured collisionFree event := by
  rcases core_cases collisionFree configured sound enabled.2 rid with
    same | ⟨action, taken, cause, -, -, ready, stepEq, -⟩
  · rwa [same]
  · have member := cause.member enabled.2
    rw [stepEq]
    exact done.step (sound.anchored collisionFree configured rid) ready
      (enabled.1 rid member) (Deployment.lockMoves_of_enabled collisionFree
        configured sound.cores member ready)

/-- What reaches the core is done. -/
theorem done_of_step {rid : ReplicaID} {event : HotstuffCore.Event}
    (member : rid ∈ deployment.config.ids)
    (ready : (cluster.cores rid).Enabled event)
    (stepEq : (cluster.next label).cores rid =
      (cluster.cores rid).step event) :
    ((cluster.next label).cores rid).Done configured collisionFree event := by
  obtain ⟨abstract, tracks⟩ :=
    tracks_of_reachable collisionFree configured sound.cores rid
  obtain ⟨abstract', tracks'⟩ := tracks_of_reachable collisionFree configured
    (sound.next collisionFree configured enabled).cores rid
  have alive := tracks'.alive
  rw [stepEq] at alive ⊢
  exact tracks.valid.done_step (tracks.core_configured member) ready
    (enabled.1 rid member) (Deployment.lockMoves_of_enabled collisionFree
      configured sound.cores member ready) alive

theorem Heeded.next (heeded : cluster.Heeded configured collisionFree) :
    (cluster.next label).Heeded configured collisionFree := by
  have kept (rid : ReplicaID) {event : HotstuffCore.Event}
      (done : (cluster.cores rid).Done configured collisionFree event) :=
    done_next collisionFree configured sound enabled rid done
  constructor
  case taken =>
    intro rid
    rcases network_next collisionFree configured sound enabled.2 rid with
      same | ⟨action, -, -, result⟩
    · rw [same]
      exact heeded.taken rid
    · rw [result]
      exact ((sound.processes rid).attended.processed_next (heeded.taken rid)
        action).1
  case selfTaken =>
    intro rid
    have longer := (selfClient_next collisionFree configured sound enabled
      rid).length_le
    rcases selfTaken_next cluster label rid with
      same | ⟨event, -, first, next, -⟩
    · rw [same]
      exact (heeded.selfTaken rid).trans longer
    · obtain ⟨bound, -⟩ := List.getElem?_eq_some_iff.mp first
      rw [next]
      exact bound.trans_le longer
  case entries =>
    intro rid entry inside
    have attended := (sound.processes rid).attended
    rcases network_next collisionFree configured sound enabled.2 rid with
      same | ⟨action, cause, actionEnabled, result⟩
    · rw [same] at inside
      exact kept rid (heeded.entries rid entry inside)
    rw [result, (attended.processed_next (heeded.taken rid) action).2] at inside
    rcases List.mem_append.mp inside with old | new
    · exact kept rid (heeded.entries rid entry old)
    cases action with
    | hotstuffEvent =>
        have found := Option.mem_toList.mp new
        refine done_of_step collisionFree configured sound enabled
          (cause.member enabled.2)
          (attended.enabled_hotstuffEvent actionEnabled.1.2
            (List.mem_of_getElem? found)) ?_
        rw [cores, result, NetworkEventQueue.next_hotstuffEvent found]
        rfl
    | _ => cases new
  case own =>
    intro rid event inside
    obtain ⟨new, longer⟩ :=
      selfClient_next collisionFree configured sound enabled rid
    rw [ownProcessed, ← longer] at inside
    rcases selfTaken_next cluster label rid with
      same | ⟨taken, rfl, first, next, stepEq⟩
    · rw [same, List.take_append_of_le_length (heeded.selfTaken rid)] at inside
      exact kept rid (heeded.own rid event inside)
    · obtain ⟨bound, -⟩ := List.getElem?_eq_some_iff.mp first
      rw [next, List.take_append_of_le_length bound, List.take_add_one, first]
        at inside
      rcases List.mem_append.mp inside with old | isTaken
      · exact kept rid (heeded.own rid event old)
      · obtain rfl := List.mem_singleton.mp isTaken
        exact done_of_step collisionFree configured sound enabled enabled.2.1
          (sound.enabled_selfEvent collisionFree configured enabled.2.1
            (List.mem_of_getElem? first)).2.2 stepEq

end Steps

theorem heeded_of_reachable (collisionFree : CollisionFree)
    (configured : deployment.WellConfigured)
    (reachable : deployment.cluster.Reachable cluster) :
    cluster.Heeded configured collisionFree := by
  refine reachable.invariant (Heeded configured collisionFree) ?_ ?_
  · rintro start rfl
    refine ⟨fun _ => Nat.le_refl _, fun _ => Nat.le_refl _, ?_, ?_⟩ <;>
      intro rid event inside <;> cases inside
  · intro cluster label reached heeded enabled
    exact heeded.next collisionFree configured
      (sound_of_reachable collisionFree configured reached) enabled

end Cluster

end Messages

end Hotstuff
