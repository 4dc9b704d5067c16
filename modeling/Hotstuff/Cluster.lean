import Hotstuff.BlockFetchWorker
import Hotstuff.EventFlow
import Hotstuff.Provenance

/-!
# Running replicas

The consensus cores of a deployment, each in its process: the network queue in
front of the core, a client for every peer, a worker that fetches blocks from
every replica, and the handlers that answer the clients and workers of the
others.  The threads take their steps in any order, and a call between two
replicas may fail before or after it has reached the peer.

All replicas run the code.  In addition anyone may send a message that a
replica could have sent, and votes in the name of a faulty replica.

To the cores, every step of such a cluster is a step of the deployment without
queues, or nothing.  So no exception ever ends a thread, and what the replicas
have committed are prefixes of each other.
-/

namespace Hotstuff

open Function (update)

section Cluster

variable [WireTypes] [Externals]

/-! ### Messages -/

/-- `VoteMessage` and `ProposeMessage` -/
inductive Message
  | vote (cert : PartialCertificate) (voter : ReplicaID)
  | propose (wireBlock : HotstuffBlockWire) (proposer : ReplicaID)

/-- The handlers of `HotstuffProtocolServer`. -/
def Message.toAction : Message → NetworkEventQueue.Action
  | .vote cert voter => .vote cert voter
  | .propose wireBlock proposer => .propose wireBlock proposer

/-- What `send_vote_to` and `broadcast_proposal` pass to `self_client`. -/
def Effect.toSelf (selfId : ReplicaID) : Effect → Option HotstuffCore.Event
  | .doVote block _ target =>
      if target = selfId then some (.selfVote block) else none
  | .broadcastProposal block _ => some (.proposal block selfId)
  | _ => none

/-- What `send_vote_to` and `broadcast_proposal` pass to the client of another
replica. -/
def Effect.toPeer (selfId peer : ReplicaID) : Effect → Option Message
  | .doVote _ cert target =>
      if target = peer then some (.vote cert selfId) else none
  | .broadcastProposal _ wireBlock => some (.propose wireBlock selfId)
  | _ => none

/-- `BlockFetchHandler::fetch` -/
def BlockStore.fetch (store : BlockStore) (reqs : List Hash) :
    List HotstuffBlockWire :=
  reqs.filterMap fun hash =>
    (store.getBlock hash).bind fun p => HotstuffCore.inMemory (store.block p)

def ClientRun.submitAll (run : ClientRun Message) (messages : List Message) :
    ClientRun Message :=
  messages.foldl (fun run message => run.next (.submit message)) run

def WorkerRun.addRequests (run : WorkerRun) (hashes : List Hash) : WorkerRun :=
  hashes.foldl (fun run hash => run.next (.addRequest hash)) run

/-! ### Processes -/

/-- A replica with its clients and workers.  Own votes and proposals go to the
hotstuff queue without a detour; they are kept apart from the other events of
that queue, and `selfTaken` of them have reached the core.  So the order between
own events and those of others is left open. -/
structure Process where
  network : NetworkEventQueue
  selfClient : List HotstuffCore.Event
  selfTaken : Nat
  otherClients : ReplicaID → ClientRun Message
  queues : ReplicaID → WorkerRun

namespace Process

def boot (selfId : ReplicaID) (config : ReplicaConfig)
    (secretKey : SecretKey) : Process where
  network := .init selfId config secretKey
  selfClient := []
  selfTaken := 0
  otherClients := fun _ => .init
  queues := fun _ => .init

/-- The effects of a step, first one first. -/
def newEffects (core after : HotstuffCore) : List Effect :=
  (after.trace.take (after.trace.length - core.trace.length)).reverse

/-- Votes and proposals go to the clients. -/
def send (process : Process) (effects : List Effect) : Process :=
  let selfId := process.network.core.selfId
  { process with
    selfClient := process.selfClient ++ effects.filterMap (Effect.toSelf selfId)
    otherClients := fun peer => (process.otherClients peer).submitAll
      (effects.filterMap (Effect.toPeer selfId peer)) }

/-- Requests for blocks go to the workers. -/
def request (process : Process) (fetches : List (ReplicaID × Hash)) :
    Process :=
  { process with
    queues := fun peer => (process.queues peer).addRequests
      (fetches.filterMap fun (target, hash) =>
        if target = peer then some hash else none) }

/-- A step of the queues and the core, with all that it sends. -/
def act (process : Process) (action : NetworkEventQueue.Action) : Process :=
  let after := process.network.next action
  ({ process with network := after }.send
    (newEffects process.network.core after.core)).request
      (after.blockFetchManager.fetches.drop
        process.network.blockFetchManager.fetches.length)

/-- What arrives is dropped unless it is valid. -/
def handle (process : Process) (action : NetworkEventQueue.Action) : Process :=
  if process.network.Enabled action then process.act action else process

/-- The hotstuff thread takes an own event. -/
def takeSelfEvent (process : Process) : Process :=
  match process.selfClient[process.selfTaken]? with
  | none => process
  | some event =>
      { process with selfTaken := process.selfTaken + 1 }.act (.own event)

def stepClient (process : Process) (peer : ReplicaID)
    (action : HotstuffProtocolClient.Action Message) : Process :=
  { process with
    otherClients := update process.otherClients peer
      ((process.otherClients peer).next action) }

def stepWorker (process : Process) (peer : ReplicaID)
    (action : BlockFetchWorker.Action) : Process :=
  { process with
    queues := update process.queues peer ((process.queues peer).next action) }

/-- The message with which a step of a client reaches the peer. -/
def outgoing (process : Process) (peer : ReplicaID) :
    HotstuffProtocolClient.Action Message → Option Message
  | .call outcome =>
      let client := (process.otherClients peer).client
      if client.rpc.connected && outcome.reachesPeer then client.todo.head?
      else none
  | _ => none

/-- The block that a step of a worker hands to the network queue. -/
def handedOn (process : Process) (peer : ReplicaID) :
    BlockFetchWorker.Action → Option HotstuffBlockWire
  | .handOn => (process.queues peer).worker.responses.head?
  | _ => none

end Process

/-! ### Clusters -/

abbrev Cluster := ReplicaID → Process

namespace Cluster

def cores (cluster : Cluster) : SystemState := fun rid =>
  (cluster rid).network.core

inductive Label
  /-- a step of a thread of the replica -/
  | thread (rid : ReplicaID) (action : NetworkEventQueue.Action)
  /-- an own vote or proposal reaches the core -/
  | selfEvent (rid : ReplicaID)
  /-- a step of the client for the peer -/
  | client (rid peer : ReplicaID)
      (action : HotstuffProtocolClient.Action Message)
  /-- a step of the worker for the peer -/
  | worker (rid peer : ReplicaID) (action : BlockFetchWorker.Action)
  /-- a message that no client of the cluster has sent -/
  | inject (rid : ReplicaID) (message : Message)

/-- The steps that the threads take by themselves. -/
def isLocal : NetworkEventQueue.Action → Bool
  | .takeEvents | .handleEvent | .hotstuffEvent => true
  | .own (.doPropose _) | .own (.doEmptyPropose _) | .own .garbageCollect => true
  | _ => false

def deliver (cluster : Cluster) (rid : ReplicaID)
    (action : NetworkEventQueue.Action) : Cluster :=
  update cluster rid ((cluster rid).handle action)

def next (cluster : Cluster) : Label → Cluster
  | .thread rid action => update cluster rid ((cluster rid).act action)
  | .selfEvent rid => update cluster rid (cluster rid).takeSelfEvent
  | .client rid peer action =>
      let moved : Cluster :=
        update cluster rid ((cluster rid).stepClient peer action)
      match (cluster rid).outgoing peer action with
      | none => moved
      | some message => moved.deliver peer message.toAction
  | .worker rid peer action =>
      let moved : Cluster :=
        update cluster rid ((cluster rid).stepWorker peer action)
      match (cluster rid).handedOn peer action with
      | none => moved
      | some wireBlock => moved.deliver rid (.fetched wireBlock peer)
  | .inject rid message => cluster.deliver rid message.toAction

end Cluster

namespace Deployment

/-- The message is not forged: a correct voter has sent the vote, and the
proposer has proposed the block. -/
def Authentic (deployment : Deployment) (state : SystemState) :
    Message → Prop
  | .vote cert voter =>
      voter ∉ deployment.faulty → cert.hash ∈ (state voter).votedHashes
  | .propose wireBlock proposer => proposer ∈ deployment.config.ids ∧
      wireBlock ∈ (state proposer).proposedWires

/-- A replica may take the step.  Clients and workers are not stopped, and a
worker is answered with what the peer has. -/
def Allowed (deployment : Deployment) (cluster : Cluster) :
    Cluster.Label → Prop
  | .thread rid action => rid ∈ deployment.config.ids ∧
      Cluster.isLocal action = true ∧ (cluster rid).network.Enabled action
  | .selfEvent rid => rid ∈ deployment.config.ids ∧
      (cluster rid).network.failed = none ∧
      (cluster rid).network.core.failed = none ∧
      (cluster rid).selfTaken < (cluster rid).selfClient.length
  | .client rid peer action => (rid ∈ deployment.config.ids ∧
      peer ∈ deployment.config.ids ∧ peer ≠ rid) ∧
      ((cluster rid).otherClients peer).client.Enabled action ∧
      match action with
      | .submit _ | .stop => False
      | .wake | .start | .enter | .tryOpen _ | .call _ => True
  | .worker rid peer action => (rid ∈ deployment.config.ids ∧
      peer ∈ deployment.config.ids) ∧
      ((cluster rid).queues peer).worker.Enabled action ∧
      match action with
      | .addRequest _ | .stop => False
      | .call _ responses => responses =
          (cluster peer).network.core.store.fetch
            ((cluster rid).queues peer).worker.req
      | .wake _ | .enter | .tryOpen _ | .handOn => True
  | .inject rid message => rid ∈ deployment.config.ids ∧
      deployment.Authentic cluster.cores message

/-- The replicas from a clean start, as long as heights fit. -/
def cluster (deployment : Deployment) :
    TransitionSystem Cluster Cluster.Label where
  initial := fun cluster => cluster = fun rid =>
    .boot rid deployment.config (deployment.secretKey rid)
  enabled := fun cluster label =>
    (∀ rid ∈ deployment.config.ids, HeightsFit (cluster rid).network.core) ∧
      deployment.Allowed cluster label
  next := Cluster.next

end Deployment

/-! ### Runs can be checked by evaluation -/

instance HotstuffProtocolClient.decidableEnabled
    (client : HotstuffProtocolClient Message) :
    (action : HotstuffProtocolClient.Action Message) →
      Decidable (client.Enabled action)
  | .submit _ | .stop => inferInstanceAs (Decidable True)
  | .wake => inferInstanceAs (Decidable (_ ∧ (_ ∨ ¬ _)))
  | .start => inferInstanceAs (Decidable (_ = RpcPlace.starting))
  | .enter => inferInstanceAs (Decidable (_ = RpcPlace.entering))
  | .tryOpen _ => inferInstanceAs (Decidable (_ = RpcPlace.opening))
  | .call _ => inferInstanceAs (Decidable (_ = RpcPlace.calling))

instance BlockFetchWorker.decidableEnabled (worker : BlockFetchWorker) :
    (action : BlockFetchWorker.Action) → Decidable (worker.Enabled action)
  | .addRequest _ | .stop => inferInstanceAs (Decidable True)
  | .wake _ => inferInstanceAs (Decidable (_ ∧ _ ∧ (_ ∨ ¬ _) ∧ _ ∧ _))
  | .enter => inferInstanceAs (Decidable (_ = RpcPlace.entering))
  | .tryOpen _ => inferInstanceAs (Decidable (_ = RpcPlace.opening))
  | .call _ _ => inferInstanceAs (Decidable (_ = RpcPlace.calling))
  | .handOn => inferInstanceAs (Decidable (_ ∧ ¬ _))

instance Deployment.decidableAuthentic (deployment : Deployment)
    (state : SystemState) :
    (message : Message) → Decidable (deployment.Authentic state message)
  | .vote _ _ => inferInstanceAs (Decidable (_ → _))
  | .propose _ _ => inferInstanceAs (Decidable (_ ∧ _))

instance Deployment.decidableAllowed (deployment : Deployment)
    (cluster : Cluster) :
    (label : Cluster.Label) → Decidable (deployment.Allowed cluster label)
  | .thread _ _ => inferInstanceAs (Decidable (_ ∧ _ ∧ _))
  | .selfEvent _ => inferInstanceAs (Decidable (_ ∧ _ ∧ _ ∧ _))
  | .client _ _ action =>
      let _ : Decidable (match action with
          | .submit _ | .stop => False
          | .wake | .start | .enter | .tryOpen _ | .call _ => True) :=
        match action with
        | .submit _ | .stop => inferInstanceAs (Decidable False)
        | .wake | .start | .enter | .tryOpen _ | .call _ =>
            inferInstanceAs (Decidable True)
      inferInstanceAs (Decidable (_ ∧ _ ∧ _))
  | .worker rid peer action =>
      let _ : Decidable (match action with
          | .addRequest _ | .stop => False
          | .call _ responses => responses =
              (cluster peer).network.core.store.fetch
                ((cluster rid).queues peer).worker.req
          | .wake _ | .enter | .tryOpen _ | .handOn => True) :=
        match action with
        | .addRequest _ | .stop => inferInstanceAs (Decidable False)
        | .call _ _ => inferInstanceAs (Decidable (_ = _))
        | .wake _ | .enter | .tryOpen _ | .handOn =>
            inferInstanceAs (Decidable True)
      inferInstanceAs (Decidable (_ ∧ _ ∧ _))
  | .inject _ _ => inferInstanceAs (Decidable (_ ∧ _))

instance Deployment.decidableClusterEnabled (deployment : Deployment)
    (cluster : Cluster) (label : Cluster.Label) :
    Decidable (deployment.cluster.enabled cluster label) :=
  inferInstanceAs (Decidable ((∀ rid ∈ deployment.config.ids, _) ∧ _))

/-! ### Clients and workers get more to do -/

omit [Externals] in
theorem ClientRun.submitAll_eq (run : ClientRun Message)
    (messages : List Message) :
    run.submitAll messages =
      { client := { run.client with work := run.client.work ++ messages }
        history :=
          { run.history with
            submitted := run.history.submitted ++ messages } } := by
  induction messages generalizing run with
  | nil =>
      rw [List.append_nil, List.append_nil]
      rfl
  | cons message messages ih =>
      refine (ih (run.next (.submit message))).trans ?_
      simp [ClientRun.next, HotstuffProtocolClient.next,
        HotstuffProtocolClient.submit, Deliveries.submit]

omit [Externals] in
theorem ClientRun.Sound.submitAll {run : ClientRun Message}
    (sound : run.Sound) (messages : List Message) :
    (run.submitAll messages).Sound := by
  induction messages generalizing run with
  | nil => exact sound
  | cons message messages ih =>
      have allowed : run.client.Enabled (.submit message) := trivial
      exact ih (sound.next allowed)

omit [Externals] in
theorem WorkerRun.worker_addRequests (run : WorkerRun) (hashes : List Hash) :
    (run.addRequests hashes).worker =
      { run.worker with reqs := run.worker.reqs ∪ hashes.toFinset } := by
  induction hashes generalizing run with
  | nil =>
      rw [List.toFinset_nil, Finset.union_empty]
      rfl
  | cons hash hashes ih =>
      refine (ih (run.next (.addRequest hash))).trans ?_
      simp [WorkerRun.next, BlockFetchWorker.next, BlockFetchWorker.addRequest]

omit [Externals] in
theorem WorkerRun.Sound.addRequests {run : WorkerRun} (sound : run.Sound)
    (hashes : List Hash) : (run.addRequests hashes).Sound := by
  induction hashes generalizing run with
  | nil => exact sound
  | cons hash hashes ih =>
      have allowed : run.worker.Enabled (.addRequest hash) := trivial
      exact ih (sound.next allowed)

/-! ### What holds in a process -/

omit [Externals] in
theorem Process.newEffects_eq {core after : HotstuffCore}
    {effects : List Effect} (traceEq : after.trace = effects ++ core.trace) :
    newEffects core after = effects.reverse := by
  rw [newEffects, traceEq, List.length_append, Nat.add_sub_cancel,
    List.take_left]

namespace Deployment

variable {deployment : Deployment} {state after : SystemState}

omit [Externals] in
theorem SentBefore.authentic (before : SentBefore state after)
    {message : Message} (authentic : deployment.Authentic state message) :
    deployment.Authentic after message := by
  cases message with
  | vote cert voter =>
      intro correct
      exact before.votedHashes voter _ (authentic correct)
  | propose wireBlock proposer =>
      exact ⟨authentic.1, before.proposedWires proposer _ authentic.2⟩

/-- What a process gets from others is not forged. -/
def Authorized (deployment : Deployment) (state : SystemState) :
    NetworkEventQueue.Action → Prop
  | .vote cert voter => deployment.Authentic state (.vote cert voter)
  | .propose wireBlock _ | .fetched wireBlock _ =>
      deployment.Proposed state wireBlock
  | .takeEvents | .handleEvent | .hotstuffEvent | .own _ => True

omit [Externals] in
theorem Authentic.authorized {message : Message}
    (authentic : deployment.Authentic state message) :
    deployment.Authorized state message.toAction := by
  cases message with
  | vote cert voter => exact authentic
  | propose wireBlock proposer => exact ⟨proposer, authentic⟩

end Deployment

namespace Process

variable {deployment : Deployment} {state after : SystemState}
  {rid : ReplicaID} {process : Process}

/-- What the replica has sent went to the clients, in its order, nothing that
it works on is lost, and nothing is forged. -/
structure Sound (deployment : Deployment) (state : SystemState)
    (rid : ReplicaID) (process : Process) : Prop where
  attended : process.network.Attended []
  selfClient : process.selfClient =
    process.network.core.trace.reverse.filterMap (Effect.toSelf rid)
  submitted : ∀ peer, (process.otherClients peer).history.submitted =
    process.network.core.trace.reverse.filterMap (Effect.toPeer rid peer)
  clients : ∀ peer, (process.otherClients peer).Sound ∧
    (process.otherClients peer).client.rpc.doneFlag = false
  workers : ∀ peer, (process.queues peer).Sound ∧
    (process.queues peer).worker.rpc.doneFlag = false
  votes : ∀ event ∈ process.network.received, ∀ cert voter,
    event.netEvent = .vote cert voter →
      deployment.Authentic state (.vote cert voter)
  answers : ∀ peer, ∀ wireBlock ∈ (process.queues peer).worker.responses,
    deployment.Proposed state wireBlock

theorem sound_boot (deployment : Deployment) (state : SystemState)
    (rid : ReplicaID) (secretKey : SecretKey) :
    (boot rid deployment.config secretKey).Sound deployment state rid where
  attended := NetworkEventQueue.attended_init rid deployment.config secretKey
  selfClient := rfl
  submitted := fun _ => rfl
  clients := fun _ =>
    ⟨⟨Deliveries.inOrder_nil, HotstuffProtocolClient.holds_init⟩, rfl⟩
  workers := fun _ => ⟨WorkerRun.sound_init, rfl⟩
  votes := nofun
  answers := nofun

/-- The other replicas move on. -/
theorem Sound.later (sound : process.Sound deployment state rid)
    (before : Deployment.SentBefore state after) :
    process.Sound deployment after rid :=
  { sound with
    votes := fun event member cert voter isVote =>
      before.authentic (sound.votes event member cert voter isVote)
    answers := fun peer wireBlock member =>
      before.proposed (sound.answers peer wireBlock member) }

theorem Sound.act (sound : process.Sound deployment state rid)
    {action : NetworkEventQueue.Action}
    (enabled : process.network.Enabled action)
    (authorized : deployment.Authorized state action)
    (sameId : (process.network.next action).core.selfId = rid)
    {effects : List Effect} (traceEq : (process.network.next action).core.trace =
      effects ++ process.network.core.trace)
    (before : Deployment.SentBefore state after) :
    (process.act action).Sound deployment after rid := by
  have sent {Sent : Type} (select : Effect → Option Sent) :
      (process.network.next action).core.trace.reverse.filterMap select =
        process.network.core.trace.reverse.filterMap select ++
          (newEffects process.network.core
            (process.network.next action).core).filterMap select := by
    rw [newEffects_eq traceEq, traceEq, List.reverse_append,
      List.filterMap_append]
  constructor
  case attended => exact sound.attended.next enabled
  case selfClient =>
    change process.selfClient ++ _ = List.filterMap _ (List.reverse
      (process.network.next action).core.trace)
    rw [sound.selfClient, sent]
    change _ ++ List.filterMap
      (Effect.toSelf (process.network.next action).core.selfId) _ = _
    rw [sameId]
  case submitted =>
    intro peer
    change ((process.otherClients peer).submitAll _).history.submitted =
      List.filterMap _ (List.reverse (process.network.next action).core.trace)
    rw [ClientRun.submitAll_eq, sent, ← sound.submitted peer]
    change _ ++ List.filterMap
      (Effect.toPeer (process.network.next action).core.selfId peer) _ = _
    rw [sameId]
  case clients =>
    intro peer
    obtain ⟨client, live⟩ := sound.clients peer
    refine ⟨client.submitAll _, ?_⟩
    change ((process.otherClients peer).submitAll _).client.rpc.doneFlag = false
    rw [ClientRun.submitAll_eq]
    exact live
  case workers =>
    intro peer
    obtain ⟨worker, live⟩ := sound.workers peer
    refine ⟨worker.addRequests _, ?_⟩
    change ((process.queues peer).addRequests _).worker.rpc.doneFlag = false
    rw [WorkerRun.worker_addRequests]
    exact live
  case votes =>
    intro event member cert voter isVote
    apply before.authentic
    change event ∈ (process.network.next action).received at member
    rw [sound.attended.received_next] at member
    rcases List.mem_append.mp member with old | new
    · exact sound.votes event old cert voter isVote
    cases action with
    | vote =>
        rw [List.mem_singleton.mp new] at isVote
        obtain ⟨rfl, rfl⟩ := NetEventVariant.vote.inj isVote
        exact authorized
    | propose | fetched =>
        rw [List.mem_singleton.mp new] at isVote
        cases isVote
    | _ => cases new
  case answers =>
    intro peer wireBlock member
    apply before.proposed
    change wireBlock ∈ ((process.queues peer).addRequests _).worker.responses
      at member
    rw [WorkerRun.worker_addRequests] at member
    exact sound.answers peer wireBlock member

theorem Sound.stepClient (sound : process.Sound deployment state rid)
    {peer : ReplicaID} {action : HotstuffProtocolClient.Action Message}
    (enabled : (process.otherClients peer).client.Enabled action)
    (running : action ≠ .stop)
    (unsubmitted : ∀ message, action ≠ .submit message) :
    (process.stepClient peer action).Sound deployment state rid := by
  refine { sound with submitted := ?_, clients := ?_ }
  · intro other
    change (update process.otherClients peer _ other).history.submitted = _
    by_cases same : other = peer
    · subst same
      rw [Function.update_self, ClientRun.submitted_next unsubmitted]
      exact sound.submitted other
    · rw [Function.update_of_ne same]
      exact sound.submitted other
  · intro other
    change (update process.otherClients peer _ other).Sound ∧
      (update process.otherClients peer _ other).client.rpc.doneFlag = false
    by_cases same : other = peer
    · subst same
      obtain ⟨client, live⟩ := sound.clients other
      rw [Function.update_self]
      exact ⟨client.next enabled, ClientRun.doneFlag_next live running⟩
    · rw [Function.update_of_ne same]
      exact sound.clients other

theorem Sound.stepWorker (sound : process.Sound deployment state rid)
    {peer : ReplicaID} {action : BlockFetchWorker.Action}
    (enabled : (process.queues peer).worker.Enabled action)
    (running : action ≠ .stop)
    (answered : ∀ outcome responses, action = .call outcome responses →
      ∀ wireBlock ∈ responses, deployment.Proposed state wireBlock) :
    (process.stepWorker peer action).Sound deployment state rid := by
  refine { sound with workers := ?_, answers := ?_ }
  · intro other
    change (update process.queues peer _ other).Sound ∧
      (update process.queues peer _ other).worker.rpc.doneFlag = false
    by_cases same : other = peer
    · subst same
      obtain ⟨worker, live⟩ := sound.workers other
      rw [Function.update_self]
      exact ⟨worker.next enabled, WorkerRun.doneFlag_next live running⟩
    · rw [Function.update_of_ne same]
      exact sound.workers other
  · intro other wireBlock member
    change wireBlock ∈ (update process.queues peer _ other).worker.responses
      at member
    by_cases same : other = peer
    · subst same
      rw [Function.update_self, WorkerRun.worker_next] at member
      rcases BlockFetchWorker.mem_responses_next member with
        old | ⟨outcome, responses, rfl, inside⟩
      · exact sound.answers other wireBlock old
      · exact answered outcome responses rfl wireBlock inside
    · rw [Function.update_of_ne same] at member
      exact sound.answers other wireBlock member

/-- A message that reaches the peer was submitted. -/
theorem Sound.outgoing (sound : process.Sound deployment state rid)
    {peer : ReplicaID} {action : HotstuffProtocolClient.Action Message}
    (enabled : (process.otherClients peer).client.Enabled action)
    {message : Message} (sent : process.outgoing peer action = some message) :
    message ∈ (process.otherClients peer).history.submitted := by
  cases action with
  | call outcome =>
      simp only [Process.outgoing] at sent
      split at sent
      · have busy : (process.otherClients peer).client.rpc.isBusy = true := by
          rw [NonblockingRpcClient.isBusy,
            show (process.otherClients peer).client.rpc.place = _ from enabled]
        rw [(sound.clients peer).1.head?_todo busy] at sent
        exact List.mem_of_getElem? sent
      · cases sent
  | _ => cases sent

/-- What a client counts as delivered has reached the peer. -/
theorem Sound.mem_delivered (sound : process.Sound deployment state rid)
    {peer : ReplicaID} {action : HotstuffProtocolClient.Action Message}
    (enabled : (process.otherClients peer).client.Enabled action) {number : Nat}
    (arrived : number ∈
      ((process.otherClients peer).next action).history.delivered) :
    number ∈ (process.otherClients peer).history.delivered ∨
      process.outgoing peer action =
        (process.otherClients peer).history.submitted[number]? := by
  rcases ClientRun.mem_delivered_next arrived with
    old | ⟨rfl, outcome, rfl, connected, reaches⟩
  · exact .inl old
  · right
    have busy : (process.otherClients peer).client.rpc.isBusy = true := by
      rw [NonblockingRpcClient.isBusy,
        show (process.otherClients peer).client.rpc.place = _ from enabled]
    rw [← (sound.clients peer).1.head?_todo busy]
    simp only [Process.outgoing]
    rw [if_pos (by rw [connected, reaches]; rfl)]

end Process

/-! ### What holds in a cluster -/

namespace Cluster

variable {deployment : Deployment} {cluster : Cluster}

omit [Externals] in
theorem cores_update (cluster : Cluster) (rid : ReplicaID)
    (process : Process) :
    cores (update cluster rid process) =
      update cluster.cores rid process.network.core := by
  funext other
  by_cases same : other = rid
  · subst same
    rw [cores, Function.update_self, Function.update_self]
  · rw [cores, Function.update_of_ne same, Function.update_of_ne same]
    rfl

/-- The cores are those of a deployment without queues. -/
structure Sound (deployment : Deployment) (cluster : Cluster) : Prop where
  cores : deployment.honestProposerSystem.Reachable cluster.cores
  processes : ∀ rid, (cluster rid).Sound deployment cluster.cores rid

omit [Externals] in
theorem cores_replace {rid : ReplicaID} {process : Process}
    (sameCore : process.network.core = cluster.cores rid) :
    cores (update cluster rid process) = cluster.cores := by
  rw [cores_update, sameCore, Function.update_eq_self]

/-- What a process does without its core. -/
theorem Sound.replace (sound : cluster.Sound deployment) {rid : ReplicaID}
    {process : Process} (sameCore : process.network.core = cluster.cores rid)
    (kept : process.Sound deployment cluster.cores rid) :
    Cluster.Sound deployment (update cluster rid process) := by
  constructor
  · rw [cores_replace sameCore]
    exact sound.cores
  · intro other
    rw [cores_replace sameCore]
    by_cases isRid : other = rid
    · subst isRid
      rw [Function.update_self]
      exact kept
    · rw [Function.update_of_ne isRid]
      exact sound.processes other

omit [Externals] in
/-- A message of a replica is not forged. -/
theorem authentic_of_toPeer {state : SystemState} {rid peer : ReplicaID}
    (member : rid ∈ deployment.config.ids) {effect : Effect}
    (sent : effect ∈ (state rid).trace) {message : Message}
    (toPeer : effect.toPeer rid peer = some message) :
    deployment.Authentic state message := by
  cases effect with
  | doVote p cert target =>
      simp only [Effect.toPeer] at toPeer
      split at toPeer
      · cases toPeer
        exact fun _ => List.mem_filterMap.mpr ⟨_, sent, rfl⟩
      · cases toPeer
  | broadcastProposal p wireBlock =>
      cases toPeer
      exact ⟨member, List.mem_filterMap.mpr ⟨_, sent, rfl⟩⟩
  | _ => cases toPeer

section Steps

variable (collisionFree : CollisionFree)
  (configured : deployment.WellConfigured)

include collisionFree configured

/-- To the cores a step of a process is a step of the deployment or nothing. -/
theorem Sound.evolves (sound : cluster.Sound deployment) {rid : ReplicaID}
    (member : rid ∈ deployment.config.ids)
    (fits : Deployment.HeightsFit (cluster rid).network.core)
    {action : NetworkEventQueue.Action}
    (enabled : (cluster rid).network.Enabled action)
    (authorized : deployment.Authorized cluster.cores action)
    {after : SystemState} (afterEq : after = update cluster.cores rid
      ((cluster rid).network.next action).core) :
    deployment.honestProposerSystem.Reachable after ∧
      Deployment.SentBefore cluster.cores after ∧
      ∃ effects, ((cluster rid).network.next action).core.trace =
        effects ++ (cluster rid).network.core.trace := by
  have process := sound.processes rid
  rcases process.attended.core_next enabled with
    same | ⟨event, coreEnabled, stepEq, hands⟩
  · have unchanged : after = cluster.cores := by
      rw [afterEq, same]
      exact Function.update_eq_self rid cluster.cores
    rw [unchanged, same]
    exact ⟨sound.cores, ⟨fun _ _ => id, fun _ _ => id⟩, [], rfl⟩
  · obtain ⟨abstract, tracks⟩ :=
      tracks_of_reachable collisionFree configured sound.cores rid
    have genuine := genuine_of_reachable collisionFree configured sound.cores
    have received {wireBlock : HotstuffBlockWire} {source : ReplicaID}
        (isReceive : event = .receiveBlock wireBlock source) :
        deployment.Proposed cluster.cores wireBlock := by
      subst isReceive
      rcases hands with rfl | rfl <;> exact authorized
    have allowed : deployment.honestProposerSystem.enabled cluster.cores
        (rid, event) := by
      refine ⟨member, coreEnabled, ?_, ?_, fits⟩
      · cases event with
        | receiveBlock => exact genuine.proposals _ (received rfl)
        | vote cert p voter =>
            obtain ⟨-, arrived, inside, -, isVote, -⟩ := hands
            exact process.votes arrived inside cert voter isVote
        | _ => trivial
      · cases event with
        | receiveBlock => exact received rfl
        | _ => trivial
    have next : after =
        deployment.honestProposerSystem.next cluster.cores (rid, event) := by
      rw [afterEq, stepEq]
      rfl
    obtain ⟨effects, traceEq, -⟩ := tracks.valid.anchored.trace_step event
    rw [stepEq, next]
    refine ⟨sound.cores.step allowed, ?_, effects, traceEq⟩
    exact .update (tracks.valid.anchored.sends_step event)

theorem Sound.act (sound : cluster.Sound deployment) {rid : ReplicaID}
    (member : rid ∈ deployment.config.ids)
    (fits : Deployment.HeightsFit (cluster.cores rid)) {process : Process}
    (kept : process.Sound deployment cluster.cores rid)
    (sameNetwork : process.network = (cluster rid).network)
    {action : NetworkEventQueue.Action}
    (enabled : process.network.Enabled action)
    (authorized : deployment.Authorized cluster.cores action) :
    Cluster.Sound deployment (update cluster rid (process.act action)) := by
  have afterEq : Cluster.cores (update cluster rid (process.act action)) =
      update cluster.cores rid ((cluster rid).network.next action).core := by
    rw [cores_update, ← sameNetwork]
    rfl
  rw [sameNetwork] at enabled
  obtain ⟨reachable, before, effects, traceEq⟩ := sound.evolves collisionFree
    configured member fits enabled authorized afterEq
  obtain ⟨abstract, tracks⟩ :=
    tracks_of_reachable collisionFree configured reachable rid
  have sameId := tracks.sameId
  rw [afterEq, Function.update_self] at sameId
  rw [← sameNetwork] at enabled sameId traceEq
  refine ⟨reachable, ?_⟩
  intro other
  by_cases isRid : other = rid
  · subst isRid
    rw [Function.update_self]
    exact kept.act enabled authorized sameId traceEq before
  · rw [Function.update_of_ne isRid]
    exact (sound.processes other).later before

theorem Sound.deliver (sound : cluster.Sound deployment) {rid : ReplicaID}
    (member : rid ∈ deployment.config.ids)
    (fits : Deployment.HeightsFit (cluster.cores rid))
    {action : NetworkEventQueue.Action}
    (authorized : deployment.Authorized cluster.cores action) :
    (cluster.deliver rid action).Sound deployment := by
  unfold Cluster.deliver Process.handle
  split
  case isTrue enabled =>
    exact sound.act collisionFree configured member fits
      (sound.processes rid) rfl enabled authorized
  case isFalse =>
    rw [Function.update_eq_self]
    exact sound

/-- What a process has sent to itself is handled without failure. -/
theorem Sound.enabled_selfEvent (sound : cluster.Sound deployment)
    {rid : ReplicaID} (member : rid ∈ deployment.config.ids)
    {event : HotstuffCore.Event} (own : event ∈ (cluster rid).selfClient) :
    (cluster rid).network.Enabled (.own event) := by
  have process := sound.processes rid
  obtain ⟨abstract, tracks⟩ :=
    tracks_of_reachable collisionFree configured sound.cores rid
  have issued := (genuine_of_reachable collisionFree configured
    sound.cores).issued rid
  have alive : (cluster rid).network.core.failed = none := tracks.alive
  rw [process.selfClient] at own
  obtain ⟨effect, sent, toSelf⟩ := List.mem_filterMap.mp own
  have sent := List.mem_reverse.mp sent
  refine ⟨⟨process.attended.failed, alive⟩, ?_⟩
  cases effect with
  | doVote p cert target =>
      simp only [Effect.toSelf] at toSelf
      split at toSelf
      · rename_i isSelf
        cases toSelf
        refine ⟨rfl, alive, List.any_eq_true.mpr ⟨_, sent, ?_⟩⟩
        have sameId : (cluster rid).network.core.selfId = rid := tracks.sameId
        simp [isSelf, sameId]
      · cases toSelf
  | broadcastProposal p wireBlock =>
      cases toSelf
      obtain ⟨linked, -⟩ := issued.proposals p wireBlock sent
      obtain ⟨parent, -, proper⟩ := tracks.valid.tree.parent_of_linked linked
      refine ⟨rfl, alive, ?_, ?_⟩
      · have height : (cluster rid).network.core.store.height p = _ :=
          proper.heightEq
        rw [height]
        exact Nat.succ_ne_zero _
      · have sameConfig : (cluster rid).network.core.config =
            deployment.config := tracks.sameConfig
        rw [sameConfig, ReplicaConfig.isValidReplica_iff]
        exact member
  | _ => cases toSelf

/-- A proposed block is taken by every replica. -/
theorem Sound.enabled_block (sound : cluster.Sound deployment)
    (rid : ReplicaID) {source : ReplicaID}
    (member : source ∈ deployment.config.ids) {wireBlock : HotstuffBlockWire}
    (proposed : deployment.Proposed cluster.cores wireBlock) :
    (cluster rid).network.Enabled (.propose wireBlock source) ∧
      (cluster rid).network.Enabled (.fetched wireBlock source) := by
  have genuine := genuine_of_reachable collisionFree configured sound.cores
  obtain ⟨abstract, tracks⟩ :=
    tracks_of_reachable collisionFree configured sound.cores rid
  have alive : (cluster rid).network.core.failed = none := tracks.alive
  have sameConfig : (cluster rid).network.core.config = deployment.config :=
    tracks.sameConfig
  have accepted : (cluster rid).network.core.Enabled
      (.receiveBlock wireBlock source) := by
    refine ⟨alive, ?_, ?_⟩
    · rw [sameConfig]
      exact ReplicaConfig.isValidReplica_iff.mpr member
    · rw [sameConfig, genuine.accepted wireBlock proposed source]
      rfl
  have running := And.intro (sound.processes rid).attended.failed alive
  exact ⟨⟨running, accepted⟩, running, accepted⟩

/-- What a replica sends is taken by its peers. -/
theorem Sound.enabled_message (sound : cluster.Sound deployment)
    {rid peer : ReplicaID} (member : rid ∈ deployment.config.ids)
    {message : Message}
    (submitted : message ∈ ((cluster rid).otherClients peer).history.submitted) :
    (cluster peer).network.Enabled message.toAction := by
  rw [(sound.processes rid).submitted] at submitted
  obtain ⟨effect, inTrace, toPeer⟩ := List.mem_filterMap.mp submitted
  have inTrace := List.mem_reverse.mp inTrace
  cases effect with
  | doVote p cert target =>
      simp only [Effect.toPeer] at toPeer
      split at toPeer
      · cases toPeer
        obtain ⟨abstract, tracks⟩ :=
          tracks_of_reachable collisionFree configured sound.cores rid
        obtain ⟨abstract', tracks'⟩ :=
          tracks_of_reachable collisionFree configured sound.cores peer
        obtain ⟨-, rfl⟩ := tracks.valid.votedPlaced p cert target inTrace
        refine ⟨⟨(sound.processes peer).attended.failed, tracks'.alive⟩, ?_⟩
        apply HotstuffCore.validate_of_signerValid
        have sameConfig : (cluster peer).network.core.config =
            deployment.config := tracks'.sameConfig
        rw [sameConfig, tracks.sameKey]
        exact configured.selfSigns rid member _
      · cases toPeer
  | broadcastProposal p wireBlock =>
      cases toPeer
      have proposed : deployment.Proposed cluster.cores wireBlock :=
        ⟨rid, member, List.mem_filterMap.mpr ⟨_, inTrace, rfl⟩⟩
      exact (sound.enabled_block collisionFree configured peer member
        proposed).1
  | _ => cases toPeer

theorem Sound.takeSelfEvent (sound : cluster.Sound deployment)
    {rid : ReplicaID} (member : rid ∈ deployment.config.ids)
    (fits : Deployment.HeightsFit (cluster.cores rid))
    (untaken : (cluster rid).selfTaken < (cluster rid).selfClient.length) :
    Cluster.Sound deployment
      (update cluster rid (cluster rid).takeSelfEvent) := by
  obtain ⟨event, found⟩ : ∃ event,
      (cluster rid).selfClient[(cluster rid).selfTaken]? = some event :=
    ⟨_, List.getElem?_eq_getElem untaken⟩
  have enabled := sound.enabled_selfEvent collisionFree configured member
    (List.mem_of_getElem? found)
  have process := sound.processes rid
  have counted : { cluster rid with
      selfTaken := (cluster rid).selfTaken + 1 }.Sound deployment
        cluster.cores rid := { process with }
  rw [Process.takeSelfEvent, found]
  exact sound.act collisionFree configured member fits counted rfl enabled
    trivial

theorem Sound.client (sound : cluster.Sound deployment)
    {rid peer : ReplicaID} {action : HotstuffProtocolClient.Action Message}
    (fits : ∀ rid ∈ deployment.config.ids,
      Deployment.HeightsFit (cluster.cores rid))
    (allowed : deployment.Allowed cluster (.client rid peer action)) :
    (cluster.next (.client rid peer action)).Sound deployment := by
  obtain ⟨⟨member, peerMember, -⟩, enabled, kind⟩ := allowed
  have process := sound.processes rid
  have moved : Cluster.Sound deployment (update cluster rid
      ((cluster rid).stepClient peer action)) := by
    refine sound.replace rfl (process.stepClient enabled ?_ ?_)
    · rintro rfl
      exact kind
    · rintro message rfl
      exact kind
  have same : Cluster.cores (update cluster rid
      ((cluster rid).stepClient peer action)) = cluster.cores :=
    cores_replace rfl
  simp only [Cluster.next]
  split
  case h_1 => exact moved
  case h_2 message sent =>
    have submitted := process.outgoing enabled sent
    rw [process.submitted] at submitted
    obtain ⟨effect, inTrace, toPeer⟩ := List.mem_filterMap.mp submitted
    have authentic : deployment.Authentic cluster.cores message :=
      authentic_of_toPeer member (List.mem_reverse.mp inTrace) toPeer
    apply moved.deliver collisionFree configured peerMember
    · rw [same]
      exact fits peer peerMember
    · rw [same]
      exact authentic.authorized

/-- A worker gets proposed blocks as answers. -/
theorem Sound.stepWorker (sound : cluster.Sound deployment)
    {rid peer : ReplicaID} {action : BlockFetchWorker.Action}
    (allowed : deployment.Allowed cluster (.worker rid peer action)) :
    ((cluster rid).stepWorker peer action).Sound deployment cluster.cores
      rid := by
  obtain ⟨-, enabled, kind⟩ := allowed
  have genuine := genuine_of_reachable collisionFree configured sound.cores
  refine (sound.processes rid).stepWorker enabled ?_ ?_
  · rintro rfl
    exact kind
  · rintro outcome responses rfl wireBlock inside
    rw [show responses = _ from kind] at inside
    obtain ⟨hash, -, found⟩ := List.mem_filterMap.mp inside
    obtain ⟨p, -, held⟩ := Option.bind_eq_some_iff.mp found
    exact genuine.blocks peer p wireBlock held

omit collisionFree configured in
theorem Sound.proposed_handedOn (sound : cluster.Sound deployment)
    {rid peer : ReplicaID} {action : BlockFetchWorker.Action}
    {wireBlock : HotstuffBlockWire}
    (handed : (cluster rid).handedOn peer action = some wireBlock) :
    wireBlock ∈ ((cluster rid).queues peer).worker.responses ∧
      deployment.Proposed cluster.cores wireBlock := by
  cases action with
  | handOn =>
      have inside := List.mem_of_head? handed
      exact ⟨inside, (sound.processes rid).answers peer wireBlock inside⟩
  | _ => cases handed

theorem Sound.worker (sound : cluster.Sound deployment)
    {rid peer : ReplicaID} {action : BlockFetchWorker.Action}
    (fits : ∀ rid ∈ deployment.config.ids,
      Deployment.HeightsFit (cluster.cores rid))
    (allowed : deployment.Allowed cluster (.worker rid peer action)) :
    (cluster.next (.worker rid peer action)).Sound deployment := by
  have member := allowed.1.1
  have moved : Cluster.Sound deployment (update cluster rid
      ((cluster rid).stepWorker peer action)) :=
    sound.replace rfl (sound.stepWorker collisionFree configured allowed)
  have same : Cluster.cores (update cluster rid
      ((cluster rid).stepWorker peer action)) = cluster.cores :=
    cores_replace rfl
  simp only [Cluster.next]
  split
  case h_1 => exact moved
  case h_2 wireBlock handed =>
    apply moved.deliver collisionFree configured member
    · rw [same]
      exact fits rid member
    · rw [same]
      exact (sound.proposed_handedOn handed).2

theorem Sound.next (sound : cluster.Sound deployment) {label : Label}
    (allowed : deployment.cluster.enabled cluster label) :
    (cluster.next label).Sound deployment := by
  obtain ⟨fits, allowed⟩ := allowed
  cases label with
  | thread rid action =>
      obtain ⟨member, isLocal, enabled⟩ := allowed
      have authorized : deployment.Authorized cluster.cores action := by
        cases action <;> first | exact trivial | cases isLocal
      exact sound.act collisionFree configured member (fits rid member)
        (sound.processes rid) rfl enabled authorized
  | selfEvent rid =>
      obtain ⟨member, -, -, untaken⟩ := allowed
      exact sound.takeSelfEvent collisionFree configured member
        (fits rid member) untaken
  | client rid peer action =>
      exact sound.client collisionFree configured fits allowed
  | worker rid peer action =>
      exact sound.worker collisionFree configured fits allowed
  | inject rid message =>
      obtain ⟨member, authentic⟩ := allowed
      exact sound.deliver collisionFree configured member (fits rid member)
        authentic.authorized

theorem sound_of_reachable
    (reachable : deployment.cluster.Reachable cluster) :
    cluster.Sound deployment := by
  refine reachable.invariant (Sound deployment) ?_ ?_
  · rintro start rfl
    refine ⟨.initial rfl, ?_⟩
    exact fun rid => Process.sound_boot deployment _ rid _
  · intro cluster label _ sound allowed
    exact sound.next collisionFree configured allowed

end Steps

end Cluster

/-- However the threads of the replicas and the calls between them are
interleaved, and whatever calls fail or are repeated, no thread of a replica ends
with an exception, votes are only sent to configured replicas, and of what two
replicas have committed one is a prefix of the other. -/
theorem cluster_agrees {deployment : Deployment} (collisionFree : CollisionFree)
    (configured : deployment.WellConfigured) {cluster : Cluster}
    (reachable : deployment.cluster.Reachable cluster) :
    (∀ rid, (cluster rid).network.failed = none ∧
        (cluster rid).network.core.failed = none ∧
        ∀ block cert target,
          .doVote block cert target ∈ (cluster rid).network.core.trace →
            target ∈ deployment.config.ids) ∧
      ∀ first second,
        (cluster first).network.core.committed <+:
            (cluster second).network.core.committed ∨
          (cluster second).network.core.committed <+:
            (cluster first).network.core.committed := by
  have sound := Cluster.sound_of_reachable collisionFree configured reachable
  obtain ⟨restricted, -⟩ :=
    honestlyMinted_of_reachable collisionFree configured sound.cores
  obtain ⟨abstract, invariant, refines⟩ := refines_of_reachable configured
    collisionFree (Finset.Subset.refl _) restricted
  constructor
  · intro rid
    refine ⟨(sound.processes rid).attended.failed, (refines rid).alive, ?_⟩
    intro block cert target sent
    have issued := (genuine_of_reachable collisionFree configured
      sound.cores).issued rid
    rw [← ReplicaConfig.isValidReplica_iff, ← (refines rid).sameConfig]
    exact issued.votes block cert target sent
  · exact refines.committed_comparable invariant

/-- `is_flushed_from_memory`, for the block with the hash -/
def BlockStore.isInMemory (store : BlockStore) (hash : Hash) : Bool :=
  (store.getBlock hash).any fun p => !(store.block p).flushedFromMemory

/-- A stored block is served under its hash. -/
theorem BlockStore.map_served {store : BlockStore} (tree : store.WellFormed)
    (genesis : HotstuffCore.inMemory (store.block 0) = none) (hash : Hash) :
    ((store.getBlock hash).bind fun p =>
        HotstuffCore.inMemory (store.block p)).map
          (fun wireBlock => hashHeader wireBlock.header) =
      Option.guard store.isInMemory hash := by
  cases found : store.getBlock hash with
  | none => simp [Option.guard, isInMemory, found]
  | some p =>
      cases flushed : (store.block p).flushedFromMemory with
      | true =>
          simp [Option.guard, isInMemory, found, HotstuffCore.inMemory, flushed]
      | false =>
          have notGenesis : p ≠ 0 := by
            rintro rfl
            rw [HotstuffCore.inMemory, flushed] at genesis
            cases genesis
          obtain ⟨hashEq, placed⟩ := tree.cacheSound hash p found
          have linked := placed.resolve_left notGenesis
          obtain ⟨header, -⟩ := tree.hashed p notGenesis
            (BlockStore.WellFormed.lt_of_linked linked)
          simp [Option.guard, isInMemory, found, HotstuffCore.inMemory, flushed,
            ← header, hashEq]

theorem BlockStore.map_fetch {store : BlockStore} (tree : store.WellFormed)
    (genesis : HotstuffCore.inMemory (store.block 0) = none)
    (reqs : List Hash) :
    (store.fetch reqs).map (fun wireBlock => hashHeader wireBlock.header) =
      reqs.filter store.isInMemory := by
  rw [BlockStore.fetch, List.map_filterMap, ← List.filterMap_eq_filter]
  congr 1
  funext hash
  exact BlockStore.map_served tree genesis hash

/-- A server answers a request with the blocks that it has in memory, in the
order of their hashes, and every replica takes what a server answers. -/
theorem fetched_blocks_accepted {deployment : Deployment}
    (collisionFree : CollisionFree) (configured : deployment.WellConfigured)
    {cluster : Cluster} (reachable : deployment.cluster.Reachable cluster)
    (rid : ReplicaID) {peer : ReplicaID}
    (member : peer ∈ deployment.config.ids) (reqs : List Hash) :
    ((cluster peer).network.core.store.fetch reqs).map
        (fun wireBlock => hashHeader wireBlock.header) =
      reqs.filter (cluster peer).network.core.store.isInMemory ∧
    ∀ wireBlock ∈ (cluster peer).network.core.store.fetch reqs,
      (cluster rid).network.Enabled (.fetched wireBlock peer) := by
  have sound := Cluster.sound_of_reachable collisionFree configured reachable
  have genuine := genuine_of_reachable collisionFree configured sound.cores
  constructor
  · exact BlockStore.map_fetch (sound.processes peer).attended.tree
      (genuine.genesis peer) reqs
  · intro wireBlock answered
    obtain ⟨hash, -, found⟩ := List.mem_filterMap.mp answered
    obtain ⟨p, -, held⟩ := Option.bind_eq_some_iff.mp found
    have proposed := genuine.blocks peer p wireBlock held
    exact (sound.enabled_block collisionFree configured rid member proposed).2

end Cluster

/-! ### Four replicas commit a block -/

namespace Symbolic

open scoped Symbolic

/-- A client sends its message, and the peer handles it.  In a first call the
answer gets lost, so that the message arrives twice. -/
def sendTo (rid peer : ReplicaID) (first : Bool) : List Cluster.Label :=
  let repeated : List Cluster.Label :=
    [.client rid peer (.tryOpen true), .client rid peer (.call .answerLost),
      .client rid peer .enter, .client rid peer (.tryOpen true)]
  let handled : List Cluster.Label :=
    [.thread peer .handleEvent, .thread peer .hotstuffEvent]
  [.client rid peer .wake, .client rid peer .start, .client rid peer .enter] ++
    (if first then repeated else []) ++
    [.client rid peer (.call .answered), .thread peer .takeEvents] ++
    handled ++ (if first then handled else [])

/-- Replica `0` proposes a block and collects the votes of `1` and `2`. -/
def proposeAndVote (body : Body) (first : Bool) : List Cluster.Label :=
  [.thread 0 (.own (.doPropose body)), .selfEvent 0, .selfEvent 0] ++
    sendTo 0 1 first ++ sendTo 1 0 first ++ sendTo 0 2 first ++
    sendTo 2 0 first

def fourRounds : List Cluster.Label :=
  proposeAndVote [1] true ++ proposeAndVote [2] false ++
    proposeAndVote [3] false ++ proposeAndVote [4] false

def fourBooted : Cluster := fun rid =>
  .boot rid fourDeployment.config (fourDeployment.secretKey rid)

def afterFourRounds : Cluster :=
  fourDeployment.cluster.run fourBooted fourRounds

theorem reachable_fourRounds :
    fourDeployment.cluster.Reachable afterFourRounds := by
  refine .run (.initial rfl) ?_
  decide +kernel

end Symbolic

open scoped Symbolic in
open Symbolic in
theorem cluster_agrees_fourRounds :
    ∃ cluster : Cluster, fourDeployment.cluster.Reachable cluster ∧
      (cluster 0).network.core.committed.length = 1 ∧
      ((cluster 0).network.core.committed <+:
          (cluster 1).network.core.committed ∨
        (cluster 1).network.core.committed <+:
          (cluster 0).network.core.committed) := by
  refine ⟨afterFourRounds, reachable_fourRounds, ?_,
    (cluster_agrees collisionFree four_wellConfigured
      reachable_fourRounds).2 0 1⟩
  decide +kernel

open scoped Symbolic in
open Symbolic in
/-- Replica `3`, which has got nothing so far, takes the committed block from
replica `1`. -/
theorem fetched_blocks_accepted_fourRounds :
    ∃ cluster : Cluster, ∃ wireBlock : HotstuffBlockWire,
      (cluster 1).network.core.store.fetch
        (cluster 1).network.core.committed = [wireBlock] ∧
      (cluster 3).network.Enabled (.fetched wireBlock 1) := by
  have one : ((afterFourRounds 1).network.core.store.fetch
      (afterFourRounds 1).network.core.committed).length = 1 := by
    decide +kernel
  obtain ⟨wireBlock, single⟩ := List.length_eq_one_iff.mp one
  have member : 1 ∈ fourDeployment.config.ids := by decide
  refine ⟨afterFourRounds, wireBlock, single, ?_⟩
  apply (fetched_blocks_accepted collisionFree four_wellConfigured
    reachable_fourRounds 3 member _).2
  rw [single]
  exact List.mem_singleton_self wireBlock

end Hotstuff
