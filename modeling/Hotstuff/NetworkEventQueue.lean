import Hotstuff.Replica
import Mathlib.Data.List.AList

/-!
# The network event queue

Votes, proposals and fetched blocks arrive in any order.  `NetworkEventQueue`
hands an event to the hotstuff queue when the block that it is about is in the
block store.  Otherwise `BlockFetchManager` parks the event under the hash of a
missing block, which is requested from the sender, and the parked events are
handled again when that block arrives.

The model has the two queues, the fetch manager and the core with its block
store.  The network thread handles one event at a time, the hotstuff thread
takes what it is handed, and between their steps messages arrive and the replica
proposes, votes and collects garbage.
-/

namespace Hotstuff

/-! ### Queues -/

/-- A queue whose thread takes all events at once and then works through
them. -/
structure GenericEventQueue (EventT : Type*) where
  events : List EventT
  workList : List EventT

namespace GenericEventQueue

variable {EventT : Type*}

def empty : GenericEventQueue EventT := ⟨[], []⟩

/-- The events in the order in which they will be handled. -/
def pending (queue : GenericEventQueue EventT) : List EventT :=
  queue.workList ++ queue.events

def addEvents (queue : GenericEventQueue EventT) (events : List EventT) :
    GenericEventQueue EventT :=
  { queue with events := queue.events ++ events }

/-- `work_list = std::move(events)` -/
def takeEvents (queue : GenericEventQueue EventT) :
    GenericEventQueue EventT :=
  { events := [], workList := queue.events }

end GenericEventQueue

section Network

variable [WireTypes] [Externals]

/-! ### Events -/

/-- The alternatives of `NetEvent`. -/
inductive NetEventVariant
  | vote (cert : PartialCertificate) (voter : ReplicaID)
  | proposal (proposedBlock : BlockPtr) (proposer : ReplicaID)
  | blockReceive (receivedBlock : BlockPtr) (sender : ReplicaID)

/-- The program has the event only; the number of its arrival keeps two equal
votes apart. -/
structure NetEvent where
  netEvent : NetEventVariant
  arrival : Nat

/-- Votes and proposals are for the core; a fetched block is not. -/
def NetEvent.isMessage (event : NetEvent) : Bool :=
  match event.netEvent with
  | .vote _ _ | .proposal _ _ => true
  | .blockReceive _ _ => false

/-- The hash of the block that an event is about. -/
def NetEvent.blockHash (event : NetEvent) (store : BlockStore) : Hash :=
  match event.netEvent with
  | .vote cert _ => cert.hash
  | .proposal p _ | .blockReceive p _ => store.hash p

/-- `Event`, what the hotstuff queue hands to the core. -/
inductive HotstuffEvent
  | vote (cert : PartialCertificate) (block : BlockPtr) (rid : ReplicaID)
  | proposal (block : BlockPtr) (rid : ReplicaID)

namespace HotstuffEvent

/-- `operator()` -/
def toCore : HotstuffEvent → HotstuffCore.Event
  | vote cert block rid => .vote cert block rid
  | proposal block rid => .proposal block rid

def validate (store : BlockStore) : HotstuffEvent → Except String Bool
  | vote cert block _ =>
      if store.hash block ≠ cert.hash then
        .error "built a VoteEvent where blk->get_hash() != cert.hash"
      else .ok true
  | proposal block _ => .ok (decide (store.height block ≠ 0))

end HotstuffEvent

/-! ### Fetch requests -/

/-- An outstanding request and the events that wait for it.  The flag for the
fetch queues, `block_is_received`, is left out. -/
structure RequestContext where
  request : Hash
  dependentNetworkEvents : List NetEvent
  requestedFrom : ReplicaIDBitMap

namespace RequestContext

def new (request : Hash) : RequestContext where
  request := request
  dependentNetworkEvents := []
  requestedFrom := 0

def addNetworkEvents (context : RequestContext) (events : List NetEvent) :
    RequestContext :=
  { context with
    dependentNetworkEvents := context.dependentNetworkEvents ++ events }

def wasRequestedFrom (context : RequestContext) (rid : ReplicaID) : Bool :=
  context.requestedFrom.getLsbD rid

end RequestContext

/-- The requests by hash, and what the fetch workers were told to fetch. -/
structure BlockFetchManager where
  outstandingReqs : AList fun _ : Hash => RequestContext
  fetches : List (ReplicaID × Hash)

namespace BlockFetchManager

def empty : BlockFetchManager := ⟨∅, []⟩

/-- The context of a hash, a new one when there is no request. -/
def context (manager : BlockFetchManager) (hash : Hash) : RequestContext :=
  (manager.outstandingReqs.lookup hash).getD (.new hash)

def addFetchRequest (manager : BlockFetchManager) (config : ReplicaConfig)
    (requestedBlock : Hash) (requestTarget : ReplicaID)
    (dependentEvents : List NetEvent) : BlockFetchManager :=
  if config.isValidReplica requestTarget then
    let ctx := manager.context requestedBlock
    { outstandingReqs := manager.outstandingReqs.insert requestedBlock
        (ctx.addNetworkEvents dependentEvents)
      fetches :=
        if ctx.wasRequestedFrom requestTarget then manager.fetches
        else manager.fetches ++ [(requestTarget, ctx.request)] }
  else manager

/-- The events that waited for the block, and the requests without it. -/
def deliverBlock (manager : BlockFetchManager) (hash : Hash) :
    List NetEvent × BlockFetchManager :=
  match manager.outstandingReqs.lookup hash with
  | none => ([], manager)
  | some context =>
      (context.dependentNetworkEvents,
        { manager with
          outstandingReqs := manager.outstandingReqs.erase hash })

end BlockFetchManager

/-! ### Handling events -/

/-- The network queue and what it refers to.  The hotstuff queue is kept whole,
each event with the network event that it came from; `taken` of its events have
reached the core. -/
structure NetworkEventQueue where
  core : HotstuffCore
  queue : GenericEventQueue NetEvent
  blockFetchManager : BlockFetchManager
  hotstuffEventQueue : List (NetEvent × HotstuffEvent)
  taken : Nat
  /-- the events that have arrived -/
  received : List NetEvent
  /-- the message of an exception in the network thread -/
  failed : Option String

namespace NetworkEventQueue

def init (selfId : ReplicaID) (config : ReplicaConfig)
    (secretKey : SecretKey) : NetworkEventQueue where
  core := .init selfId config secretKey
  queue := .empty
  blockFetchManager := .empty
  hotstuffEventQueue := []
  taken := 0
  received := []
  failed := none

/-- `EventQueue::validate_and_add_event` -/
def forward (network : NetworkEventQueue) (source : NetEvent)
    (event : HotstuffEvent) : NetworkEventQueue :=
  match event.validate network.core.store with
  | .error message => { network with failed := some message }
  | .ok false => network
  | .ok true =>
      { network with
        hotstuffEventQueue := network.hotstuffEventQueue ++ [(source, event)] }

def addFetchRequest (network : NetworkEventQueue) (requestedBlock : Hash)
    (requestTarget : ReplicaID) (dependentEvents : List NetEvent) :
    NetworkEventQueue :=
  { network with
    blockFetchManager := network.blockFetchManager.addFetchRequest
      network.core.config requestedBlock requestTarget dependentEvents }

def insertBlock (network : NetworkEventQueue) (p : BlockPtr) :
    NetworkEventQueue :=
  { network with core := network.core.step (.insertBlock p) }

/-- Take the events out of a request. -/
def deliverBlock (network : NetworkEventQueue) (hash : Hash) :
    NetworkEventQueue :=
  { network with
    blockFetchManager := (network.blockFetchManager.deliverBlock hash).2 }

def addEvents (network : NetworkEventQueue) (events : List NetEvent) :
    NetworkEventQueue :=
  { network with queue := network.queue.addEvents events }

/-- The events that wait for a block are handled again. -/
def releaseDependents (network : NetworkEventQueue) (p : BlockPtr) :
    NetworkEventQueue :=
  let hash := network.core.store.hash p
  (network.deliverBlock hash).addEvents
    (network.blockFetchManager.deliverBlock hash).1

/-- The events that wait for a block, and the event that brought it, wait for
its first missing dependency; a second one is only requested. -/
def awaitDependencies (network : NetworkEventQueue) (event : NetEvent)
    (p : BlockPtr) (sender : ReplicaID)
    (missing : BlockStore.MissingDependencies) : NetworkEventQueue :=
  let hash := network.core.store.hash p
  let depEvents := (network.blockFetchManager.deliverBlock hash).1 ++ [event]
  let delivered := network.deliverBlock hash
  match missing.parentHash, missing.justifyHash with
  | some parentHash, some justifyHash =>
      (delivered.addFetchRequest parentHash sender depEvents).addFetchRequest
        justifyHash sender []
  | some parentHash, none =>
      delivered.addFetchRequest parentHash sender depEvents
  | none, some justifyHash =>
      delivered.addFetchRequest justifyHash sender depEvents
  | none, none => delivered

def onEvent (network : NetworkEventQueue) (event : NetEvent) :
    NetworkEventQueue :=
  match event.netEvent with
  | .vote cert voter =>
      match network.core.store.getBlock cert.hash with
      | some p => network.forward event (.vote cert p voter)
      | none => network.addFetchRequest cert.hash voter [event]
  | .proposal p proposer =>
      let missing := (network.core.store.insertBlock p).2
      if missing.any then
        (network.insertBlock p).awaitDependencies event p proposer missing
      else
        ((network.insertBlock p).releaseDependents p).forward event
          (.proposal p proposer)
  | .blockReceive p sender =>
      let missing := (network.core.store.insertBlock p).2
      if missing.any then
        (network.insertBlock p).awaitDependencies event p sender missing
      else (network.insertBlock p).releaseDependents p

/-! ### Steps -/

inductive Action
  /-- a vote message -/
  | vote (cert : PartialCertificate) (voter : ReplicaID)
  /-- a proposal message -/
  | propose (wireBlock : HotstuffBlockWire) (proposer : ReplicaID)
  /-- the answer to a fetch request -/
  | fetched (wireBlock : HotstuffBlockWire) (sender : ReplicaID)
  /-- the network thread takes what has arrived -/
  | takeEvents
  /-- the network thread handles the next event -/
  | handleEvent
  /-- the hotstuff thread hands the next event to the core -/
  | hotstuffEvent
  /-- a proposal or a vote of the replica itself, or garbage collection -/
  | own (event : HotstuffCore.Event)

/-- Events that do not come from the network. -/
def isOwn : HotstuffCore.Event → Bool
  | .receiveBlock _ _ | .insertBlock _ | .vote _ _ _ => false
  | .selfVote _ | .proposal _ _ | .doPropose _ | .doEmptyPropose _
  | .garbageCollect => true

/-- Messages come from configured replicas and pass `validate`. -/
def Enabled (network : NetworkEventQueue) (action : Action) : Prop :=
  (network.failed = none ∧ network.core.failed = none) ∧
  match action with
  | .vote cert voter =>
      (network.core.config.getInfo voter).toOption.any (cert.validate ·) = true
  | .propose wireBlock proposer =>
      network.core.Enabled (.receiveBlock wireBlock proposer)
  | .fetched wireBlock sender =>
      network.core.Enabled (.receiveBlock wireBlock sender)
  | .takeEvents =>
      network.queue.workList.isEmpty = true ∧
        network.queue.events.isEmpty = false
  | .handleEvent => network.queue.workList.isEmpty = false
  | .hotstuffEvent => network.taken < network.hotstuffEventQueue.length
  | .own event => isOwn event = true ∧ network.core.Enabled event

/-- `add_event_`, for a message that was validated -/
def receive (network : NetworkEventQueue) (netEvent : NetEventVariant) :
    NetworkEventQueue :=
  let event := ⟨netEvent, network.received.length⟩
  { network with
    queue := network.queue.addEvents [event]
    received := network.received ++ [event] }

/-- A block object is made from the message before the event is queued. -/
def receiveBlock (network : NetworkEventQueue) (wireBlock : HotstuffBlockWire)
    (source : ReplicaID) : NetworkEventQueue :=
  { network with core := network.core.step (.receiveBlock wireBlock source) }

def handleEvent (network : NetworkEventQueue) : NetworkEventQueue :=
  match network.queue.workList with
  | [] => network
  | event :: rest =>
      { network with queue := { network.queue with workList := rest } }.onEvent
        event

def takeHotstuffEvent (network : NetworkEventQueue) : NetworkEventQueue :=
  match network.hotstuffEventQueue[network.taken]? with
  | none => network
  | some (_, event) =>
      { network with
        core := network.core.step event.toCore
        taken := network.taken + 1 }

def next (network : NetworkEventQueue) : Action → NetworkEventQueue
  | .vote cert voter => network.receive (.vote cert voter)
  | .propose wireBlock proposer =>
      (network.receiveBlock wireBlock proposer).receive
        (.proposal network.core.store.heap.length proposer)
  | .fetched wireBlock sender =>
      (network.receiveBlock wireBlock sender).receive
        (.blockReceive network.core.store.heap.length sender)
  | .takeEvents => { network with queue := network.queue.takeEvents }
  | .handleEvent => network.handleEvent
  | .hotstuffEvent => network.takeHotstuffEvent
  | .own event => { network with core := network.core.step event }

instance decidableEnabled (network : NetworkEventQueue) :
    (action : Action) → Decidable (network.Enabled action)
  | .vote _ _ => inferInstanceAs (Decidable (_ ∧ _ = true))
  | .propose wireBlock proposer =>
      let _ := HotstuffCore.decidableEnabled network.core
        (.receiveBlock wireBlock proposer)
      inferInstanceAs (Decidable ((_ ∧ _) ∧ _))
  | .fetched wireBlock sender =>
      let _ := HotstuffCore.decidableEnabled network.core
        (.receiveBlock wireBlock sender)
      inferInstanceAs (Decidable ((_ ∧ _) ∧ _))
  | .takeEvents => inferInstanceAs (Decidable (_ ∧ _ ∧ _))
  | .handleEvent => inferInstanceAs (Decidable (_ ∧ _ = false))
  | .hotstuffEvent => inferInstanceAs (Decidable (_ ∧ _ < _))
  | .own event =>
      let _ := HotstuffCore.decidableEnabled network.core event
      inferInstanceAs (Decidable (_ ∧ _ = true ∧ _))

end NetworkEventQueue

/-- One replica with its queues, from a clean start. -/
def networkSystem (selfId : ReplicaID) (config : ReplicaConfig)
    (secretKey : SecretKey) :
    TransitionSystem NetworkEventQueue NetworkEventQueue.Action where
  initial := fun network => network = .init selfId config secretKey
  enabled := NetworkEventQueue.Enabled
  next := NetworkEventQueue.next

end Network

end Hotstuff
