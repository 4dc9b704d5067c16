import Hotstuff.Quiescence
import Mathlib.Algebra.BigOperators.Group.Finset.Piecewise
import Mathlib.Algebra.Order.BigOperators.Group.Finset

/-!
# The price of tasks

When nothing is proposed, every task of a replica leads to fewer or cheaper
ones: a proposal that arrives is handed to the core, which may vote; a vote is
sent, arrives and is counted; and a block of which a dependency is missing leads
to requests for blocks that are lower.  We give every task a price that pays for
all that it leads to, so each step makes a replica's load smaller.

Parked events are the exception: they are handled again when the block arrives
that they wait for.  This happens once for every block, since a stored block is
never requested again.
-/

namespace Hotstuff

open Function (update)

/-! ### Prices -/

/-- The price of a task pays for two of lower rank, and for some steps. -/
def price : Nat → Nat
  | 0 => 32
  | rank + 1 => 3 * price rank

theorem le_price (rank : Nat) : 32 ≤ price rank := by
  induction rank with
  | zero => exact Nat.le_refl 32
  | succ rank ih =>
      rw [price]
      omega

theorem price_lt {low high : Nat} (lower : low < high) :
    2 * price low + 32 ≤ price high := by
  induction high with
  | zero => exact (Nat.not_lt_zero low lower).elim
  | succ high ih =>
      have least := le_price low
      rw [price]
      rcases Nat.lt_succ_iff_lt_or_eq.mp lower with below | rfl
      · have := ih below
        omega
      · omega

/-- What is added to the end of a queue of which a part is done. -/
theorem sum_drop_append_le {Entry : Type*} (cost : Entry → Nat)
    (queue new : List Entry) (done : Nat) :
    (((queue ++ new).drop done).map cost).sum ≤
      ((queue.drop done).map cost).sum + (new.map cost).sum := by
  rw [List.drop_append, List.map_append, List.sum_append]
  refine Nat.add_le_add_left ?_ _
  exact ((List.drop_sublist _ new).map cost).sum_le_sum fun _ _ => Nat.zero_le _

/-- The sum when one of the values is replaced. -/
theorem sum_update {Index Value : Type*} [DecidableEq Index]
    (cost : Index → Value → Nat) {indices : Finset Index} {index : Index}
    (member : index ∈ indices) (values : Index → Value) (value : Value) :
    ∑ i ∈ indices, cost i (update values index value i) +
        cost index (values index) =
      ∑ i ∈ indices, cost i (values i) + cost index value := by
  have others : ∑ i ∈ indices.erase index, cost i (update values index value i) =
      ∑ i ∈ indices.erase index, cost i (values i) := by
    refine Finset.sum_congr rfl fun i inside => ?_
    rw [Function.update_of_ne (Finset.ne_of_mem_erase inside)]
  rw [← Finset.add_sum_erase indices _ member,
    ← Finset.add_sum_erase indices (fun i => cost i (values i)) member, others,
    Function.update_self]
  omega

section Prices

variable [WireTypes] [Externals] (height : Hash → Nat)

/-! ### What is left to do -/

/-- The price of an event in the network queue. -/
def NetEvent.cost (store : BlockStore) (event : NetEvent) : Nat :=
  match event.netEvent with
  | .vote cert _ => price (8 * height cert.hash + 3)
  | .proposal p _ => price (8 * height (store.hash p) + 6)
  | .blockReceive p _ => price (8 * height (store.hash p) + 1)

/-- The price of an event for the core. -/
def HotstuffCore.Event.cost (store : BlockStore) :
    HotstuffCore.Event → Nat
  | .proposal p _ => price (8 * height (store.hash p) + 5)
  | _ => price 0

def Message.cost : Message → Nat
  | .vote cert _ => price (8 * height cert.hash + 4)
  | .propose wireBlock _ =>
      price (8 * height (hashHeader wireBlock.header) + 7)

def requestCost (hash : Hash) : Nat :=
  price (8 * height hash + 2)

/-- What is in the network queue and in the hotstuff queue. -/
def NetworkEventQueue.queueCost (network : NetworkEventQueue) : Nat :=
  (network.queue.pending.map (NetEvent.cost height network.core.store)).sum +
    ((network.hotstuffEventQueue.drop network.taken).map fun entry =>
      entry.2.toCore.cost height network.core.store).sum

/-- The network thread takes events when it has none. -/
def NetworkEventQueue.load (network : NetworkEventQueue) : Nat :=
  network.queueCost height +
    if network.queue.workList.isEmpty then 1 else 0

def ClientRun.load (run : ClientRun Message) : Nat :=
  (run.history.due.map (Message.cost height)).sum + run.client.rank

/-- What a worker has asked for, until the blocks are handed on. -/
def BlockFetchWorker.cost (worker : BlockFetchWorker) : Nat :=
  ∑ hash ∈ worker.reqs, requestCost height hash +
    (worker.req.map (requestCost height)).sum +
    (worker.responses.map fun wireBlock =>
      requestCost height (hashHeader wireBlock.header)).sum

def WorkerRun.load (run : WorkerRun) : Nat :=
  run.worker.cost height + run.rank

/-- What a replica has to do for a group of replicas. -/
def Process.load (replicas : Finset ReplicaID) (rid : ReplicaID)
    (process : Process) : Nat :=
  process.network.load height +
    ((process.selfClient.drop process.selfTaken).map
      (HotstuffCore.Event.cost height process.network.core.store)).sum +
    ∑ peer ∈ replicas.erase rid, (process.otherClients peer).load height +
    ∑ peer ∈ replicas, (process.queues peer).load height

/-- The hashes for which events may still be parked. -/
def NetworkEventQueue.unsettledHashes (hashes : Finset Hash)
    (network : NetworkEventQueue) : Finset Hash :=
  hashes.filter fun hash => network.core.store.getBlock hash = none ∨
    hash ∈ network.blockFetchManager.outstandingReqs

variable {height}

/-! ### New tasks -/

theorem ClientRun.load_submit {run : ClientRun Message} (sound : run.Sound)
    (message : Message) :
    (run.next (.submit message)).load height =
      run.load height + (message.cost height + 5) := by
  have due : (run.next (.submit message)).history.due =
      run.history.due ++ [message] := Deliveries.due_submit sound.inOrder message
  have rank : (run.next (.submit message)).client.rank =
      run.client.rank + 5 := by
    change 5 * (run.client.work ++ [message]).length +
      3 * run.client.todo.tail.length + run.client.rpc.place.rank = _
    rw [List.length_append, List.length_singleton, HotstuffProtocolClient.rank]
    omega
  rw [ClientRun.load, ClientRun.load, due, rank, List.map_append,
    List.sum_append, List.map_singleton, List.sum_singleton]
  omega

theorem ClientRun.load_submitAll {run : ClientRun Message} (sound : run.Sound)
    (messages : List Message) :
    (run.submitAll messages).load height =
      run.load height +
        (messages.map fun message => message.cost height + 5).sum := by
  induction messages generalizing run with
  | nil => rfl
  | cons message messages ih =>
      have allowed : run.client.Enabled (.submit message) := trivial
      refine (ih (sound.next allowed)).trans ?_
      rw [ClientRun.load_submit sound, List.map_cons, List.sum_cons,
        Nat.add_assoc]

theorem WorkerRun.load_addRequest (height : Hash → Nat) (run : WorkerRun)
    (hash : Hash) :
    (run.next (.addRequest hash)).load height ≤
      run.load height + (requestCost height hash + 4) := by
  have rank : (run.next (.addRequest hash)).rank ≤ run.rank + 4 := by
    change (if insert hash run.worker.reqs = ∅ then 0 else 4) +
      run.worker.rpc.place.rank ≤ _
    rw [WorkerRun.rank]
    split <;> omega
  have requests : ∑ hash ∈ insert hash run.worker.reqs,
      requestCost height hash ≤
        requestCost height hash +
          ∑ hash ∈ run.worker.reqs, requestCost height hash := by
    by_cases known : hash ∈ run.worker.reqs
    · rw [Finset.insert_eq_of_mem known]
      exact Nat.le_add_left _ _
    · rw [Finset.sum_insert known]
  change ∑ hash ∈ insert hash run.worker.reqs, requestCost height hash +
    (run.worker.req.map (requestCost height)).sum +
    (run.worker.responses.map fun wireBlock =>
      requestCost height (hashHeader wireBlock.header)).sum +
    (run.next (.addRequest hash)).rank ≤ _
  rw [WorkerRun.load, BlockFetchWorker.cost]
  omega

theorem WorkerRun.load_addRequests (run : WorkerRun) (hashes : List Hash) :
    (run.addRequests hashes).load height ≤
      run.load height +
        (hashes.map fun hash => requestCost height hash + 4).sum := by
  induction hashes generalizing run with
  | nil => exact Nat.le_refl _
  | cons hash hashes ih =>
      refine (ih (run.next (.addRequest hash))).trans ?_
      have first := run.load_addRequest height hash
      rw [List.map_cons, List.sum_cons]
      omega

omit [Externals] in
/-- A request goes to one replica. -/
theorem sum_requests_le (cost : Hash → Nat) (replicas : Finset ReplicaID)
    (requests : List (ReplicaID × Hash)) :
    ∑ peer ∈ replicas, ((requests.filterMap fun (target, hash) =>
        if target = peer then some hash else none).map cost).sum ≤
      (requests.map fun request => cost request.2).sum := by
  induction requests with
  | nil => simp
  | cons request requests ih =>
      obtain ⟨target, hash⟩ := request
      have split (peer : ReplicaID) :
          (((((target, hash) :: requests).filterMap fun (target, hash) =>
            if target = peer then some hash else none)).map cost).sum =
          (if target = peer then cost hash else 0) +
            ((requests.filterMap fun (target, hash) =>
              if target = peer then some hash else none).map cost).sum := by
        by_cases same : target = peer <;> simp [same]
      have single : ∑ peer ∈ replicas, (if target = peer then cost hash else 0) ≤
          cost hash := by
        rw [Finset.sum_ite_eq]
        split
        · exact Nat.le_refl _
        · exact Nat.zero_le _
      simp only [split, Finset.sum_add_distrib, List.map_cons, List.sum_cons]
      exact Nat.add_le_add single ih

/-! ### Steps of clients and workers -/

theorem ClientRun.load_next (height : Hash → Nat)
    {run : ClientRun Message} (sound : run.Sound)
    (live : run.client.rpc.doneFlag = false)
    {action : HotstuffProtocolClient.Action Message}
    (enabled : run.client.Enabled action)
    (success : ClientRun.succeeds action = true)
    (noCall : ∀ outcome, action ≠ .call outcome) :
    (run.next action).load height < run.load height := by
  have rank := ClientRun.rank_next sound live enabled success
  have history : (run.next action).history = run.history := by
    cases action with
    | submit | stop => cases success
    | call outcome => exact (noCall outcome rfl).elim
    | wake | start | enter | tryOpen => rfl
  rw [ClientRun.load, ClientRun.load, history]
  omega

/-- A message that has arrived is no longer due. -/
theorem ClientRun.load_answered (height : Hash → Nat)
    {run : ClientRun Message} (sound : run.Sound)
    (live : run.client.rpc.doneFlag = false)
    (calling : run.client.rpc.place = .calling) {message : Message}
    (first : run.client.todo.head? = some message) :
    (run.next (.call .answered)).load height + message.cost height <
      run.load height := by
  have enabled : run.client.Enabled (.call .answered) := calling
  have rank := ClientRun.rank_next sound live enabled rfl
  have due : run.history.due = message :: run.history.due.tail := by
    rw [sound.holds.remaining (.inl live)]
    cases todo : run.client.todo with
    | nil =>
        rw [todo] at first
        cases first
    | cons head rest =>
        rw [todo] at first
        cases first
        rfl
  have left : (run.next (.call .answered)).history.due =
      run.history.due.tail := by
    change (if run.client.rpc.connected then run.history.call .answered
      else run.history).due = _
    rw [if_pos (sound.holds.rpc.connected calling live)]
    exact Deliveries.due_answered
  rw [ClientRun.load, ClientRun.load, left, due, List.map_cons, List.sum_cons,
    List.tail_cons]
  omega

theorem WorkerRun.load_next (height : Hash → Nat)
    {run : WorkerRun} (sound : run.Sound)
    (live : run.worker.rpc.doneFlag = false) {action : BlockFetchWorker.Action}
    (enabled : run.worker.Enabled action)
    (success : WorkerRun.succeeds action = true)
    (keeps : action ≠ .handOn)
    (answered : ∀ outcome responses, action = .call outcome responses →
      (responses.map fun wireBlock : HotstuffBlockWire =>
        requestCost height (hashHeader wireBlock.header)).sum ≤
      (run.worker.req.map (requestCost height)).sum) :
    (run.next action).load height < run.load height := by
  have rank := WorkerRun.rank_next sound live enabled success
  have requesting : WorkerRun.isRequesting action = true := by
    cases action with
    | addRequest | stop => cases success
    | handOn => exact (keeps rfl).elim
    | wake | enter | tryOpen | call => rfl
  rw [if_pos requesting] at rank
  have cost : (run.worker.next action).cost height ≤
      run.worker.cost height := by
    cases action with
    | addRequest | stop => cases success
    | handOn => exact (keeps rfl).elim
    | enter | tryOpen => exact Nat.le_refl _
    | wake extracted =>
        obtain ⟨waiting, handed, -, distinct, enumerates⟩ := enabled
        have awake : run.worker.next (.wake extracted) =
            { run.worker with req := extracted, reqs := ∅ }.moveTo
              .entering := by
          unfold BlockFetchWorker.next BlockFetchWorker.wake
          dsimp only
          rw [live]
          rfl
        rw [awake]
        change ∑ hash ∈ (∅ : Finset Hash), requestCost height hash +
          (extracted.map (requestCost height)).sum + _ ≤
            ∑ hash ∈ run.worker.reqs, requestCost height hash + _ + _
        rw [← enumerates, List.sum_toFinset (requestCost height) distinct,
          Finset.sum_empty]
        exact Nat.add_le_add_right (by omega) _
    | call outcome responses =>
        have connected := sound.rpc.connected enabled live
        have isAnswered : outcome = .answered := eq_of_beq success
        have reply : run.worker.next (.call outcome responses) =
            run.worker.answer responses := by
          rw [isAnswered]
          change (if run.worker.rpc.connected then run.worker.answer responses
            else _) = _
          rw [if_pos connected]
        have fewer := answered outcome responses rfl
        rw [reply]
        change ∑ hash ∈ run.worker.reqs, requestCost height hash + 0 +
          (responses.map fun wireBlock : HotstuffBlockWire =>
            requestCost height (hashHeader wireBlock.header)).sum ≤ _
        rw [BlockFetchWorker.cost]
        omega
  change (run.next action).worker.cost height + (run.next action).rank <
    run.worker.cost height + run.rank
  rw [WorkerRun.worker_next]
  omega

theorem WorkerRun.load_handOn (height : Hash → Nat) {run : WorkerRun}
    {wireBlock : HotstuffBlockWire}
    (first : run.worker.responses.head? = some wireBlock) :
    (run.next .handOn).load height +
        requestCost height (hashHeader wireBlock.header) =
      run.load height := by
  change ∑ hash ∈ run.worker.reqs, requestCost height hash +
    (run.worker.req.map (requestCost height)).sum +
    (run.worker.responses.tail.map fun wireBlock =>
      requestCost height (hashHeader wireBlock.header)).sum + run.rank + _ = _
  rw [WorkerRun.load, BlockFetchWorker.cost]
  cases responses : run.worker.responses with
  | nil =>
      rw [responses] at first
      cases first
  | cons head rest =>
      rw [responses] at first
      cases first
      rw [List.tail_cons, List.map_cons, List.sum_cons]
      omega

/-! ### Steps of the network thread -/

namespace NetworkEventQueue

variable {network after : NetworkEventQueue} {event : NetEvent}
  {hashes : Finset Hash}

theorem NetEvent.Known.cost_eq {core grown : HotstuffCore}
    (known : event.Known core) (grows : core.Grows grown) :
    event.cost height grown.store = event.cost height core.store := by
  have same := known.blockHash_eq grows
  obtain ⟨netEvent, arrival⟩ := event
  cases netEvent with
  | vote => rfl
  | proposal | blockReceive =>
      exact congrArg (fun hash => price (8 * height hash + _)) same

/-- The queues cost the same when the block tree has grown. -/
theorem Attended.queueCost_grow (height : Hash → Nat)
    {inHand : List NetEvent} (attended : network.Attended inHand)
    {core : HotstuffCore} (grows : network.core.Grows core) :
    { network with core := core }.queueCost height =
      network.queueCost height := by
  have pending : network.queue.pending.map (NetEvent.cost height core.store) =
      network.queue.pending.map
        (NetEvent.cost height network.core.store) := by
    apply List.map_congr_left
    intro event member
    have arrived := attended.arrived event (.inl (.inl member))
    exact NetEvent.Known.cost_eq (attended.known event arrived) grows
  have forwarded : (network.hotstuffEventQueue.drop network.taken).map
      (fun entry => entry.2.toCore.cost height core.store) =
        (network.hotstuffEventQueue.drop network.taken).map
          (fun entry => entry.2.toCore.cost height network.core.store) := by
    apply List.map_congr_left
    rintro ⟨source, delivered⟩ member
    have delivers := attended.delivers _ (List.mem_of_mem_drop member)
    cases delivered with
    | vote cert p voter => rfl
    | proposal p proposer =>
        have bound := BlockStore.WellFormed.lt_of_linked delivers.2
        exact congrArg (fun hash => price (8 * height hash + 5))
          (grows.longer.identity p bound).1
  unfold queueCost
  rw [pending, forwarded]

omit [Externals] in
theorem queueCost_addEvents (height : Hash → Nat) (network : NetworkEventQueue)
    (events : List NetEvent) :
    (network.addEvents events).queueCost height =
      network.queueCost height +
        (events.map (NetEvent.cost height network.core.store)).sum := by
  change ((network.queue.workList ++ (network.queue.events ++ events)).map
    (NetEvent.cost height network.core.store)).sum + _ = _
  rw [← List.append_assoc, List.map_append, List.sum_append, queueCost,
    GenericEventQueue.pending]
  exact Nat.add_right_comm _ _ _

omit [Externals] in
theorem queueCost_enqueue (height : Hash → Nat) (network : NetworkEventQueue)
    (source : NetEvent) (delivered : HotstuffEvent) :
    (network.enqueue source delivered).queueCost height ≤
      network.queueCost height +
        delivered.toCore.cost height network.core.store := by
  have added := sum_drop_append_le
    (fun entry : NetEvent × HotstuffEvent =>
      entry.2.toCore.cost height network.core.store)
    network.hotstuffEventQueue [(source, delivered)] network.taken
  rw [List.map_singleton, List.sum_singleton] at added
  exact (Nat.add_le_add_left added _).trans_eq (Nat.add_assoc _ _ _).symm

/-- A stored block is never requested again. -/
theorem Handled.mem_outstandingReqs (handled : Handled network event after)
    (known : event.Known network.core) {hash : Hash}
    (outstanding : hash ∈ after.blockFetchManager.outstandingReqs) :
    hash ∈ network.blockFetchManager.outstandingReqs ∨
      network.core.store.getBlock hash = none := by
  have delivered {p : BlockPtr}
      (kept : hash ∈ (network.blockFetchManager.deliverBlock
        (network.core.store.hash p)).2.outstandingReqs) :
      hash ∈ network.blockFetchManager.outstandingReqs :=
    (BlockFetchManager.mem_deliverBlock.mp kept).2
  have absent {p : BlockPtr} {missing : Hash}
      (named : missing ∈ network.core.store.missing p) :
      network.core.store.getBlock missing = none :=
    (BlockStore.mem_missing.mp named).2
  cases handled with
  | vote => exact .inl outstanding
  | unknownVote isVote missing =>
      rcases (BlockFetchManager.mem_addFetchRequest
        (NetEvent.valid_of_vote isVote known)).mp outstanding with rfl | old
      · exact .inr missing
      · exact .inl old
  | incomplete brings missing =>
      rcases (BlockFetchManager.mem_addFetchRequest
        (NetEvent.Brings.valid brings known)).mp outstanding with rfl | old
      · exact .inr (absent (missing ▸ List.mem_cons_self))
      · exact .inl (delivered old)
  | @doublyIncomplete p source hash₁ further brings missing =>
      have valid := NetEvent.Brings.valid brings known
      rcases (BlockFetchManager.mem_addFetchRequest valid).mp outstanding with
        rfl | requested
      · exact .inr (absent
          (missing ▸ List.mem_cons_of_mem _ List.mem_cons_self))
      rcases (BlockFetchManager.mem_addFetchRequest valid).mp requested with
        rfl | old
      · exact .inr (absent (missing ▸ List.mem_cons_self))
      · exact .inl (delivered old)
  | stored | proposed =>
      exact .inl (BlockFetchManager.mem_deliverBlock.mp outstanding).2

theorem unsettledHashes_subset (grows : network.core.Grows after.core)
    (outstanding : ∀ hash ∈ after.blockFetchManager.outstandingReqs,
      hash ∈ network.blockFetchManager.outstandingReqs ∨
        network.core.store.getBlock hash = none) :
    after.unsettledHashes hashes ⊆ network.unsettledHashes hashes := by
  intro hash unsettled
  obtain ⟨member, unsettled⟩ := Finset.mem_filter.mp unsettled
  refine Finset.mem_filter.mpr ⟨member, ?_⟩
  rcases unsettled with missing | requested
  · left
    cases found : network.core.store.getBlock hash with
    | none => rfl
    | some p => cases (grows.longer.cache hash p found).symm.trans missing
  · exact (outstanding hash requested).symm

/-- When the hashes that may be parked for stay the same, nothing waits for a
block that is stored. -/
theorem waiting_of_settled {p : BlockPtr}
    (tree : network.core.store.WellFormed) (notGenesis : p ≠ 0)
    (bound : p < network.core.store.heap.length)
    (linked : ((network.insertBlock p).core.store.block p).Linked)
    (proposed : network.core.store.hash p ∈ hashes)
    (settled : (network.storeBlock p).unsettledHashes hashes =
      network.unsettledHashes hashes) :
    network.blockFetchManager.waiting (network.core.store.hash p) = [] := by
  apply BlockFetchManager.waiting_of_notMem
  intro outstanding
  have before : network.core.store.hash p ∈ network.unsettledHashes hashes :=
    Finset.mem_filter.mpr ⟨proposed, .inr outstanding⟩
  rw [← settled] at before
  have sameHash := network.hash_insertBlock p p
  rcases (Finset.mem_filter.mp before).2 with missing | still
  · have stored := (tree.insertBlock notGenesis bound).1.linkedCached p linked
    rw [← sameHash] at missing
    exact (Option.isSome_iff_ne_none.mp stored) missing
  · change _ ∈ ((network.insertBlock p).blockFetchManager.deliverBlock
      ((network.insertBlock p).core.store.hash p)).2.outstandingReqs at still
    rw [sameHash] at still
    exact (BlockFetchManager.mem_deliverBlock.mp still).1 rfl

theorem Attended.unsettledHashes_next (hashes : Finset Hash)
    (attended : network.Attended []) {action : Action}
    (enabled : network.Enabled action) :
    (network.next action).unsettledHashes hashes ⊆
      network.unsettledHashes hashes := by
  by_cases handles : action = .handleEvent
  · subst handles
    obtain ⟨event, rest, work⟩ := List.exists_cons_of_ne_nil
      (mt List.isEmpty_iff.mpr (by rw [enabled.2]; decide))
    have taken := attended.takeFirst work
    have arrived := taken.arrived event (.inr (List.mem_singleton_self _))
    have known := taken.known event arrived
    have handled := attended.handleEvent work
    have grows : network.core.Grows (network.next .handleEvent).core :=
      handled.grows taken.tree known
    exact unsettledHashes_subset grows fun hash =>
      handled.mem_outstandingReqs known
  · refine unsettledHashes_subset (attended.grows_next enabled) ?_
    intro hash requested
    rw [blockFetchManager_next handles] at requested
    exact .inl requested

/-- The blocks that are requested for an event are lower than its block. -/
def Descends (height : Hash → Nat) (network : NetworkEventQueue)
    (event : NetEvent) : Prop :=
  ∀ p source, event.Brings p source →
    ∀ hash ∈ network.core.store.missing p,
      height hash < height (network.core.store.hash p)

omit [Externals] in
theorem cost_vote {cert : PartialCertificate} {voter : ReplicaID}
    (isVote : event.netEvent = .vote cert voter) :
    event.cost height network.core.store =
      price (8 * height cert.hash + 3) := by
  rw [NetEvent.cost, isVote]

omit [Externals] in
theorem cost_brings {p : BlockPtr} {source : ReplicaID}
    (brings : event.Brings p source) :
    price (8 * height (network.core.store.hash p) + 1) ≤
      event.cost height network.core.store := by
  rcases brings with isBlock | isBlock
  · have lower : 8 * height (network.core.store.hash p) + 1 <
        8 * height (network.core.store.hash p) + 6 := by omega
    have paid := price_lt lower
    rw [NetEvent.cost, isBlock]
    dsimp only
    omega
  · rw [NetEvent.cost, isBlock]

omit [Externals] in
/-- A block pays for two blocks that it names. -/
theorem Descends.requestCost_le (descends : network.Descends height event)
    {p : BlockPtr} {source : ReplicaID} (brings : event.Brings p source)
    {hash : Hash} (missing : hash ∈ network.core.store.missing p) :
    2 * requestCost height hash + 32 ≤
      event.cost height network.core.store := by
  have lower := descends p source brings hash missing
  exact (price_lt (by omega)).trans (cost_brings brings)

/-- A stored block costs nothing, unless events are released. -/
theorem Attended.queueCost_storeBlock (height : Hash → Nat)
    (attended : network.Attended [event])
    {p : BlockPtr} {source : ReplicaID} (brings : event.Brings p source)
    (complete : network.core.store.missing p = [])
    (linked : ((network.insertBlock p).core.store.block p).Linked)
    (proposed : network.core.store.hash p ∈ hashes)
    (settled : (network.storeBlock p).unsettledHashes hashes =
      network.unsettledHashes hashes) :
    network.requestsFor event = [] ∧
      (network.storeBlock p).queueCost height = network.queueCost height := by
  have arrived := attended.arrived event (.inr (List.mem_singleton_self _))
  obtain ⟨notGenesis, bound⟩ :=
    NetEvent.Brings.known brings (attended.known event arrived)
  obtain ⟨tree, longer⟩ := attended.tree.insertBlock notGenesis bound
  refine ⟨by rw [requestsFor_brings brings, complete]; rfl, ?_⟩
  have released : ((network.insertBlock p).blockFetchManager.deliverBlock
      ((network.insertBlock p).core.store.hash p)).1 = [] := by
    rw [hash_insertBlock, BlockFetchManager.events_deliverBlock]
    exact waiting_of_settled attended.tree notGenesis bound linked proposed
      settled
  unfold storeBlock releaseDependents
  dsimp only
  rw [queueCost_addEvents, released]
  have grows : network.core.Grows (network.core.step (.insertBlock p)) :=
    ⟨rfl, tree, longer⟩
  exact attended.queueCost_grow height grows

/-- An event pays for what it leads to, unless events are released. -/
theorem Handled.queueCost (handled : Handled network event after)
    (attended : network.Attended [event])
    (descends : network.Descends height event)
    (proposed : ∀ p source, event.Brings p source →
      network.core.store.hash p ∈ hashes)
    (settled : after.unsettledHashes hashes =
      network.unsettledHashes hashes) :
    after.queueCost height + ((network.requestsFor event).map
        fun request => requestCost height request.2 + 4).sum + 2 ≤
      network.queueCost height + event.cost height network.core.store := by
  cases handled with
  | @vote cert voter p isVote found =>
      have added := network.queueCost_enqueue height event (.vote cert p voter)
      have paid : 2 * price 0 + 32 ≤ price (8 * height cert.hash + 3) :=
        price_lt (by omega)
      rw [requestsFor_vote isVote, found, cost_vote isVote]
      change _ ≤ _ + price 0 at added
      change _ + 0 + 2 ≤ _
      omega
  | @unknownVote cert voter isVote missing =>
      have paid : 2 * requestCost height cert.hash + 32 ≤
          price (8 * height cert.hash + 3) := price_lt (by omega)
      rw [requestsFor_vote isVote, missing, cost_vote isVote]
      change network.queueCost height + (requestCost height cert.hash + 4 + 0) +
        2 ≤ _
      omega
  | @incomplete p source hash brings missing =>
      have paid := descends.requestCost_le brings
        (missing ▸ List.mem_singleton_self hash)
      rw [requestsFor_brings brings, missing]
      change network.queueCost height + (requestCost height hash + 4 + 0) +
        2 ≤ _
      omega
  | @doublyIncomplete p source hash further brings missing =>
      have paid := descends.requestCost_le brings
        (missing ▸ List.mem_cons_self (a := hash))
      have alsoPaid := descends.requestCost_le brings
        (missing ▸ List.mem_cons_of_mem hash (List.mem_singleton_self further))
      rw [requestsFor_brings brings, missing]
      change network.queueCost height + (requestCost height hash + 4 +
        (requestCost height further + 4 + 0)) + 2 ≤ _
      omega
  | @stored p source isBlock complete linked =>
      have brings : event.Brings p source := .inr isBlock
      have paid := le_price (8 * height (network.core.store.hash p) + 1)
      have enough : _ ≤ event.cost height network.core.store :=
        cost_brings brings
      obtain ⟨none, same⟩ := attended.queueCost_storeBlock height brings
        complete linked (proposed p source brings) settled
      rw [none, same]
      change _ + 0 + 2 ≤ _
      omega
  | @proposed p source isProposal complete linked =>
      have brings : event.Brings p source := .inl isProposal
      have paid : 2 * price (8 * height (network.core.store.hash p) + 5) + 32 ≤
          price (8 * height (network.core.store.hash p) + 6) :=
        price_lt (by omega)
      have cost : event.cost height network.core.store =
          price (8 * height (network.core.store.hash p) + 6) := by
        rw [NetEvent.cost, isProposal]
      obtain ⟨none, same⟩ := attended.queueCost_storeBlock height brings
        complete linked (proposed p source brings) settled
      have added := (network.storeBlock p).queueCost_enqueue height event
        (.proposal p source)
      change _ ≤ _ + price (8 * height
        ((network.insertBlock p).core.store.hash p) + 5) at added
      rw [same, hash_insertBlock] at added
      rw [none, cost]
      change _ + 0 + 2 ≤ _
      omega

theorem load_takeEvents (height : Hash → Nat)
    (idle : network.queue.workList.isEmpty = true)
    (waiting : network.queue.events.isEmpty = false) :
    (network.next .takeEvents).load height < network.load height := by
  have empty := List.isEmpty_iff.mp idle
  have pending : network.queue.takeEvents.pending = network.queue.pending := by
    rw [GenericEventQueue.pending, GenericEventQueue.pending, empty]
    exact List.append_nil _
  have same : (network.next .takeEvents).queueCost height =
      network.queueCost height := by
    change (network.queue.takeEvents.pending.map
      (NetEvent.cost height network.core.store)).sum + _ = _
    rw [pending]
    rfl
  rw [load, load, same, idle]
  change _ + (if network.queue.events.isEmpty then 1 else 0) < _
  rw [waiting]
  exact Nat.lt_succ_self _

theorem Attended.load_handleEvent (attended : network.Attended [])
    {rest : List NetEvent} (work : network.queue.workList = event :: rest)
    (descends : network.Descends height event)
    (proposed : ∀ p source, event.Brings p source →
      network.core.store.hash p ∈ hashes)
    (settled : (network.next .handleEvent).unsettledHashes hashes =
      network.unsettledHashes hashes) :
    (network.next .handleEvent).load height + ((network.requestsFor event).map
        fun request => requestCost height request.2 + 4).sum <
      network.load height := by
  let remaining : NetworkEventQueue :=
    { network with queue := { network.queue with workList := rest } }
  have paid : (network.next .handleEvent).queueCost height +
      ((network.requestsFor event).map
        fun request => requestCost height request.2 + 4).sum + 2 ≤
      remaining.queueCost height + event.cost height network.core.store :=
    (attended.handleEvent work).queueCost (attended.takeFirst work) descends
      proposed settled
  have before : network.queueCost height =
      event.cost height network.core.store + remaining.queueCost height := by
    unfold queueCost GenericEventQueue.pending
    rw [work, List.cons_append, List.map_cons, List.sum_cons, Nat.add_assoc]
  have flag : (if (network.next .handleEvent).queue.workList.isEmpty then 1
      else 0) ≤ 1 := by
    split <;> omega
  rw [load, load, before]
  omega

theorem Attended.load_hotstuffEvent (height : Hash → Nat)
    (attended : network.Attended [])
    (enabled : network.Enabled .hotstuffEvent) :
    ∃ entry ∈ network.hotstuffEventQueue,
      (network.next .hotstuffEvent).core =
        network.core.step entry.2.toCore ∧
      (network.next .hotstuffEvent).load height +
          entry.2.toCore.cost height network.core.store =
        network.load height := by
  obtain ⟨⟨-, running⟩, untaken⟩ := enabled
  have found := List.getElem?_eq_getElem untaken
  obtain ⟨entry, entryEq⟩ :
      ∃ entry, network.hotstuffEventQueue[network.taken] = entry := ⟨_, rfl⟩
  have member : entry ∈ network.hotstuffEventQueue :=
    entryEq ▸ List.getElem_mem untaken
  have enabled := attended.enabled_hotstuffEvent running member
  have grows := HotstuffCore.grows_of_enabled attended.tree enabled
  let advanced : NetworkEventQueue :=
    { network with taken := network.taken + 1 }
  let stepped : NetworkEventQueue :=
    { advanced with core := network.core.step entry.2.toCore }
  have nextEq : network.next .hotstuffEvent = stepped := by
    change network.takeHotstuffEvent = stepped
    unfold takeHotstuffEvent
    rw [found, entryEq]
  have split : network.queueCost height =
      advanced.queueCost height +
        entry.2.toCore.cost height network.core.store := by
    unfold queueCost
    rw [List.drop_eq_getElem_cons untaken, entryEq, List.map_cons,
      List.sum_cons, Nat.add_comm (HotstuffCore.Event.cost _ _ _),
      Nat.add_assoc]
  have advances : advanced.Attended [] := { attended with }
  have same : stepped.queueCost height = advanced.queueCost height :=
    advances.queueCost_grow height grows
  refine ⟨entry, member, congrArg core nextEq, ?_⟩
  have flag : stepped.load height = stepped.queueCost height +
      if network.queue.workList.isEmpty then 1 else 0 := rfl
  rw [nextEq, flag, same, load, split]
  omega

/-- What arrives. -/
theorem Attended.load_receive (height : Hash → Nat)
    (attended : network.Attended []) {core : HotstuffCore}
    (grows : network.core.Grows core) (netEvent : NetEventVariant) :
    ({ network with core := core }.receive netEvent).load height =
      network.load height +
        NetEvent.cost height core.store
          ⟨netEvent, network.received.length⟩ := by
  let grown : NetworkEventQueue := { network with core := core }
  let event : NetEvent := ⟨netEvent, network.received.length⟩
  have same : grown.queueCost height = network.queueCost height :=
    attended.queueCost_grow height grows
  have added : (grown.addEvents [event]).queueCost height =
      grown.queueCost height + (event.cost height core.store + 0) :=
    queueCost_addEvents height grown [event]
  have loadEq : (grown.receive netEvent).load height =
      (grown.addEvents [event]).queueCost height +
        if network.queue.workList.isEmpty then 1 else 0 := rfl
  change _ = network.load height + event.cost height core.store
  rw [loadEq, added, same, load]
  omega

theorem Attended.load_own (height : Hash → Nat) (attended : network.Attended [])
    {event : HotstuffCore.Event} (enabled : network.Enabled (.own event)) :
    (network.next (.own event)).load height = network.load height := by
  have grows := HotstuffCore.grows_of_enabled attended.tree enabled.2.2
  exact congrArg (· + _) (attended.queueCost_grow height grows)

end NetworkEventQueue

/-! ### Steps of a process -/

theorem HotstuffCore.reverse_newlySent (core : HotstuffCore) (event : Event) :
    (core.newlySent event).reverse = core.newlySent event := by
  cases event with
  | proposal p proposer =>
      rw [newlySent]
      split <;> rfl
  | _ => rfl

theorem HotstuffCore.Anchored.filterMap_newEffects {core : HotstuffCore}
    (anchored : core.Anchored) (event : Event) {Sent : Type*}
    {select : Effect → Option Sent}
    (sent : ∀ effect : Effect, effect.isSent = false → select effect = none) :
    (Process.newEffects core (core.step event)).filterMap select =
      (core.newlySent event).filterMap select := by
  obtain ⟨effects, traceEq, sentEq⟩ := anchored.trace_step event
  rw [Process.newEffects_eq traceEq, ← core.reverse_newlySent event, ← sentEq,
    List.filterMap_reverse, List.filterMap_reverse, List.filterMap_filter]
  congr 2
  funext effect
  cases isSent : effect.isSent with
  | true => rfl
  | false => exact sent effect isSent

namespace Process

variable {deployment : Deployment} {state : SystemState} {rid : ReplicaID}
  {process : Process} {replicas : Finset ReplicaID}

/-- What the effects of a step cost. -/
def sentCost (height : Hash → Nat) (replicas : Finset ReplicaID)
    (rid : ReplicaID) (store : BlockStore) (effects : List Effect) : Nat :=
  ((effects.filterMap (Effect.toSelf rid)).map
    (HotstuffCore.Event.cost height store)).sum +
  ∑ peer ∈ replicas.erase rid,
    ((effects.filterMap (Effect.toPeer rid peer)).map fun message =>
      message.cost height + 5).sum

theorem sentCost_nil (height : Hash → Nat) (replicas : Finset ReplicaID)
    (rid : ReplicaID) (store : BlockStore) :
    sentCost height replicas rid store [] = 0 := by
  simp [sentCost]

theorem sentCost_vote (height : Hash → Nat) (replicas : Finset ReplicaID)
    (rid : ReplicaID) (store : BlockStore) (p : BlockPtr)
    (cert : PartialCertificate) (target : ReplicaID) :
    sentCost height replicas rid store [.doVote p cert target] ≤
      price 0 + (price (8 * height cert.hash + 4) + 5) := by
  refine Nat.add_le_add ?_ ?_
  · by_cases same : target = rid
    · simp [Effect.toSelf, same, HotstuffCore.Event.cost]
    · simp [Effect.toSelf, same]
  · have single (peer : ReplicaID) :
        (([Effect.doVote p cert target].filterMap (Effect.toPeer rid peer)).map
          fun message => message.cost height + 5).sum =
        if target = peer then price (8 * height cert.hash + 4) + 5 else 0 := by
      by_cases same : target = peer
      · simp [Effect.toPeer, same, Message.cost]
      · simp [Effect.toPeer, same]
    simp only [single, Finset.sum_ite_eq]
    split
    · exact Nat.le_refl _
    · exact Nat.zero_le _

theorem sentCost_same {core after : HotstuffCore}
    (same : after.trace = core.trace) (store : BlockStore) :
    sentCost height replicas rid store (newEffects core after) = 0 := by
  have none : newEffects core after = [] :=
    newEffects_eq (same.trans (List.nil_append _).symm)
  rw [none, sentCost_nil]

theorem sentCost_newEffects (height : Hash → Nat)
    (replicas : Finset ReplicaID) (rid : ReplicaID) (store : BlockStore)
    {core : HotstuffCore} (anchored : core.Anchored)
    (event : HotstuffCore.Event) :
    sentCost height replicas rid store (newEffects core (core.step event)) =
      sentCost height replicas rid store (core.newlySent event) := by
  have toSelf : ∀ effect : Effect, effect.isSent = false →
      effect.toSelf rid = none := by
    intro effect unsent
    cases effect <;> first | rfl | cases unsent
  have toPeer (peer : ReplicaID) : ∀ effect : Effect, effect.isSent = false →
      effect.toPeer rid peer = none := by
    intro effect unsent
    cases effect <;> first | rfl | cases unsent
  unfold sentCost
  simp only [anchored.filterMap_newEffects event toSelf,
    anchored.filterMap_newEffects event (toPeer _)]

/-- An event pays for the vote that it leads to. -/
theorem sentCost_step (height : Hash → Nat) (replicas : Finset ReplicaID)
    (rid : ReplicaID) {core : HotstuffCore} (anchored : core.Anchored)
    {event : HotstuffCore.Event} (unminted : core.newProposals event = [])
    (store : BlockStore) :
    sentCost height replicas rid store (newEffects core (core.step event)) <
      event.cost height core.store := by
  have positive : 0 < price 0 := (le_price 0).trans_lt' (by omega)
  rw [sentCost_newEffects height replicas rid store anchored]
  cases event with
  | proposal p proposer =>
      have paid : 2 * price (8 * height (core.store.hash p) + 4) + 32 ≤
          price (8 * height (core.store.hash p) + 5) := price_lt (by omega)
      have least : 2 * price 0 + 32 ≤
          price (8 * height (core.store.hash p) + 4) := price_lt (by omega)
      have vote := sentCost_vote height replicas rid store p
        (PartialCertificate.sign (core.store.hash p) core.secretKey) proposer
      change _ ≤ price 0 + (price (8 * height (core.store.hash p) + 4) + 5)
        at vote
      rw [HotstuffCore.newlySent, HotstuffCore.Event.cost]
      split
      · omega
      · rw [sentCost_nil]
        omega
  | doPropose | doEmptyPropose => cases unminted
  | receiveBlock | insertBlock | vote | selfVote | garbageCollect =>
      exact (sentCost_nil height replicas rid store).trans_lt positive

theorem load_act (height : Hash → Nat) (replicas : Finset ReplicaID)
    (sound : process.Sound deployment state rid)
    {action : NetworkEventQueue.Action}
    (grows : process.network.core.Grows (process.network.next action).core)
    (sameId : (process.network.next action).core.selfId = rid)
    (own : ∀ p proposer, .proposal p proposer ∈ process.selfClient →
      p < process.network.core.store.heap.length)
    {requests : List (ReplicaID × Hash)}
    (fetchesEq : (process.network.next action).blockFetchManager.fetches =
      process.network.blockFetchManager.fetches ++ requests) :
    (process.act action).load height replicas rid +
        process.network.load height ≤
      process.load height replicas rid +
        (process.network.next action).load height +
        sentCost height replicas rid (process.network.next action).core.store
          (newEffects process.network.core (process.network.next action).core) +
        (requests.map fun request => requestCost height request.2 + 4).sum := by
  let after := process.network.next action
  let effects := newEffects process.network.core after.core
  change after.core.selfId = rid at sameId
  change _ ≤ _ + after.load height +
    sentCost height replicas rid after.core.store effects + _
  have drop : after.blockFetchManager.fetches.drop
      process.network.blockFetchManager.fetches.length = requests := by
    rw [fetchesEq, List.drop_left]
  have sameCost : (process.selfClient.drop process.selfTaken).map
      (HotstuffCore.Event.cost height after.core.store) =
        (process.selfClient.drop process.selfTaken).map
          (HotstuffCore.Event.cost height process.network.core.store) := by
    apply List.map_congr_left
    intro event member
    cases event with
    | proposal p proposer =>
        have bound := own p proposer (List.mem_of_mem_drop member)
        exact congrArg (fun hash => price (8 * height hash + 5))
          (grows.longer.identity p bound).1
    | _ => rfl
  have selfCost := sum_drop_append_le
    (HotstuffCore.Event.cost height after.core.store) process.selfClient
    (effects.filterMap (Effect.toSelf after.core.selfId)) process.selfTaken
  have clients : ∑ peer ∈ replicas.erase rid,
      ((process.otherClients peer).submitAll
        (effects.filterMap (Effect.toPeer after.core.selfId peer))).load height =
      ∑ peer ∈ replicas.erase rid, (process.otherClients peer).load height +
        ∑ peer ∈ replicas.erase rid,
          ((effects.filterMap (Effect.toPeer rid peer)).map fun message =>
            message.cost height + 5).sum := by
    rw [← Finset.sum_add_distrib, sameId]
    refine Finset.sum_congr rfl fun peer _ => ?_
    exact ClientRun.load_submitAll (sound.clients peer).1 _
  have workers : ∑ peer ∈ replicas, ((process.queues peer).addRequests
      (requests.filterMap fun (target, hash) =>
        if target = peer then some hash else none)).load height ≤
      ∑ peer ∈ replicas, (process.queues peer).load height +
        (requests.map fun request => requestCost height request.2 + 4).sum := by
    refine (Finset.sum_le_sum fun peer _ =>
      WorkerRun.load_addRequests _ _).trans ?_
    rw [Finset.sum_add_distrib]
    exact Nat.add_le_add_left (sum_requests_le _ replicas requests) _
  have loadEq : (process.act action).load height replicas rid =
      after.load height +
        (((process.selfClient ++ effects.filterMap
          (Effect.toSelf after.core.selfId)).drop process.selfTaken).map
            (HotstuffCore.Event.cost height after.core.store)).sum +
        ∑ peer ∈ replicas.erase rid, ((process.otherClients peer).submitAll
          (effects.filterMap
            (Effect.toPeer after.core.selfId peer))).load height +
        ∑ peer ∈ replicas, ((process.queues peer).addRequests
          (requests.filterMap fun (target, hash) =>
            if target = peer then some hash else none)).load height := by
    rw [← drop]
    rfl
  rw [sameCost, sameId] at selfCost
  rw [loadEq, clients, sentCost, load, sameId]
  omega

section Steps

variable (sound : process.Sound deployment state rid)
  (anchored : process.network.core.Anchored)
  (sameId : process.network.core.selfId = rid)
  (own : ∀ p proposer, .proposal p proposer ∈ process.selfClient →
    p < process.network.core.store.heap.length)

include sound anchored sameId own

/-- A step of the core. -/
theorem load_act_step (height : Hash → Nat) (replicas : Finset ReplicaID)
    (action : NetworkEventQueue.Action)
    (other : action ≠ .handleEvent) {event : HotstuffCore.Event}
    (enabled : process.network.core.Enabled event)
    (coreEq : (process.network.next action).core =
      process.network.core.step event)
    (unminted : process.network.core.newProposals event = []) :
    (process.act action).load height replicas rid +
        process.network.load height <
      process.load height replicas rid +
        (process.network.next action).load height +
        event.cost height process.network.core.store := by
  have grows := HotstuffCore.grows_of_enabled sound.attended.tree enabled
  have stillId := (anchored.sends_step event).selfId.trans sameId
  have fetches : (process.network.next action).blockFetchManager.fetches =
      process.network.blockFetchManager.fetches ++ [] := by
    rw [NetworkEventQueue.blockFetchManager_next other, List.append_nil]
  rw [← coreEq] at grows stillId
  have acted := load_act height replicas sound grows stillId own fetches
  have paid := sentCost_step height replicas rid anchored unminted
    (process.network.next action).core.store
  rw [← coreEq] at paid
  rw [List.map_nil, List.sum_nil] at acted
  omega

theorem load_hotstuffEvent (height : Hash → Nat)
    (replicas : Finset ReplicaID)
    (enabled : process.network.Enabled .hotstuffEvent) :
    (process.act .hotstuffEvent).load height replicas rid <
      process.load height replicas rid := by
  obtain ⟨entry, member, coreEq, paid⟩ :=
    sound.attended.load_hotstuffEvent height enabled
  have allowed := sound.attended.enabled_hotstuffEvent enabled.1.2 member
  have unminted : process.network.core.newProposals entry.2.toCore = [] := by
    cases entry.2 <;> rfl
  have acted := load_act_step sound anchored sameId own height replicas
    .hotstuffEvent (by intro same; cases same) allowed coreEq unminted
  omega

omit anchored in
theorem load_takeEvents (height : Hash → Nat)
    (replicas : Finset ReplicaID)
    (enabled : process.network.Enabled .takeEvents) :
    (process.act .takeEvents).load height replicas rid <
      process.load height replicas rid := by
  have less := NetworkEventQueue.load_takeEvents height enabled.2.1
    enabled.2.2
  have grows : process.network.core.Grows
      (process.network.next .takeEvents).core :=
    ⟨rfl, sound.attended.tree, .refl _⟩
  have acted := load_act height replicas sound grows sameId own
    (List.append_nil _).symm
  have same : (process.network.next .takeEvents).core.trace =
      process.network.core.trace := rfl
  rw [sentCost_same same, List.map_nil, List.sum_nil] at acted
  omega

omit anchored in
theorem load_handleEvent (height : Hash → Nat)
    (replicas : Finset ReplicaID) {hashes : Finset Hash} {event : NetEvent}
    {rest : List NetEvent}
    (work : process.network.queue.workList = event :: rest)
    (unmarked : process.network.blockFetchManager.Unmarked)
    (descends : process.network.Descends height event)
    (proposed : ∀ p source, event.Brings p source →
      process.network.core.store.hash p ∈ hashes)
    (settled : (process.network.next .handleEvent).unsettledHashes hashes =
      process.network.unsettledHashes hashes) :
    (process.act .handleEvent).load height replicas rid <
      process.load height replicas rid := by
  have paid := sound.attended.load_handleEvent work descends proposed settled
  have handled := sound.attended.handleEvent work
  have taken := sound.attended.takeFirst work
  have arrived := taken.arrived event (.inr (List.mem_singleton_self _))
  have known := taken.known event arrived
  have sameTrace : (process.network.next .handleEvent).core.trace =
      process.network.core.trace ∧
      (process.network.next .handleEvent).core.selfId =
        process.network.core.selfId := by
    rcases handled.core known with same | ⟨p, -, -, same⟩
    · exact ⟨congrArg HotstuffCore.trace same,
        congrArg HotstuffCore.selfId same⟩
    · exact ⟨(congrArg HotstuffCore.trace same).trans rfl,
        (congrArg HotstuffCore.selfId same).trans rfl⟩
  have fetches :
      (process.network.next .handleEvent).blockFetchManager.fetches =
        process.network.blockFetchManager.fetches ++
          process.network.requestsFor event :=
    handled.fetches unmarked known
  have grows : process.network.core.Grows
      (process.network.next .handleEvent).core :=
    handled.grows taken.tree known
  have acted := load_act height replicas sound grows
    (sameTrace.2.trans sameId) own fetches
  rw [sentCost_same sameTrace.1] at acted
  omega

theorem load_takeSelfEvent (height : Hash → Nat)
    (replicas : Finset ReplicaID)
    (untaken : process.selfTaken < process.selfClient.length)
    (enabled : ∀ event ∈ process.selfClient,
      process.network.Enabled (.own event))
    (unminted : ∀ event ∈ process.selfClient,
      process.network.core.newProposals event = []) :
    process.takeSelfEvent.load height replicas rid <
      process.load height replicas rid := by
  obtain ⟨event, eventEq⟩ :
      ∃ event, process.selfClient[process.selfTaken] = event := ⟨_, rfl⟩
  have found : process.selfClient[process.selfTaken]? = some event := by
    rw [List.getElem?_eq_getElem untaken, eventEq]
  have member := List.mem_of_getElem? found
  have allowed := enabled event member
  let advanced : Process := { process with selfTaken := process.selfTaken + 1 }
  have stillSound : advanced.Sound deployment state rid := { sound with }
  have split : process.load height replicas rid =
      advanced.load height replicas rid +
        event.cost height process.network.core.store := by
    have left : advanced.load height replicas rid =
        process.network.load height +
          ((process.selfClient.drop (process.selfTaken + 1)).map
            (HotstuffCore.Event.cost height process.network.core.store)).sum +
          ∑ peer ∈ replicas.erase rid,
            (process.otherClients peer).load height +
          ∑ peer ∈ replicas, (process.queues peer).load height := rfl
    rw [left, load, List.drop_eq_getElem_cons untaken, eventEq, List.map_cons,
      List.sum_cons]
    omega
  have same : (advanced.network.next (.own event)).load height =
      process.network.load height := sound.attended.load_own height allowed
  have acted := load_act_step stillSound anchored sameId own height replicas
    (.own event) (by intro same; cases same) allowed.2.2 rfl
    (unminted event member)
  have taken : process.takeSelfEvent = advanced.act (.own event) := by
    unfold takeSelfEvent
    rw [found]
  rw [taken]
  change _ + process.network.load height < _ + _ +
    event.cost height process.network.core.store at acted
  omega

omit anchored in
/-- What arrives. -/
theorem load_act_receive (height : Hash → Nat) (replicas : Finset ReplicaID)
    {action : NetworkEventQueue.Action} {netEvent : NetEventVariant}
    {core : HotstuffCore}
    (nextEq : process.network.next action =
      { process.network with core := core }.receive netEvent)
    (grows : process.network.core.Grows core)
    (sameTrace : core.trace = process.network.core.trace)
    (stillId : core.selfId = process.network.core.selfId) :
    (process.act action).load height replicas rid ≤
      process.load height replicas rid +
        NetEvent.cost height core.store
          ⟨netEvent, process.network.received.length⟩ := by
  have coreEq : (process.network.next action).core = core := by
    rw [nextEq]
    rfl
  have fetches : (process.network.next action).blockFetchManager.fetches =
      process.network.blockFetchManager.fetches ++ [] := by
    rw [nextEq, List.append_nil]
    rfl
  have received := sound.attended.load_receive height grows netEvent
  rw [← nextEq] at received
  have acted := load_act height replicas sound (coreEq ▸ grows)
    ((congrArg HotstuffCore.selfId coreEq).trans (stillId.trans sameId)) own
    fetches
  rw [coreEq, sentCost_same sameTrace, List.map_nil, List.sum_nil] at acted
  omega

omit anchored in
theorem load_act_block (height : Hash → Nat) (replicas : Finset ReplicaID)
    {wireBlock : HotstuffBlockWire} {source : ReplicaID}
    (enabled : process.network.core.Enabled (.receiveBlock wireBlock source)) :
    (process.act (.propose wireBlock source)).load height replicas rid ≤
      process.load height replicas rid +
        price (8 * height (hashHeader wireBlock.header) + 6) ∧
    (process.act (.fetched wireBlock source)).load height replicas rid ≤
      process.load height replicas rid +
        price (8 * height (hashHeader wireBlock.header) + 1) := by
  have grows := HotstuffCore.grows_of_enabled sound.attended.tree enabled
  have hashEq : (process.network.core.step
      (.receiveBlock wireBlock source)).store.hash
        process.network.core.store.heap.length =
      hashHeader wireBlock.header :=
    (process.network.block_receiveBlock wireBlock source).2
  let core := process.network.core.step (.receiveBlock wireBlock source)
  have proposed : process.network.next (.propose wireBlock source) =
      { process.network with core := core }.receive
        (.proposal process.network.core.store.heap.length source) := rfl
  have fetched : process.network.next (.fetched wireBlock source) =
      { process.network with core := core }.receive
        (.blockReceive process.network.core.store.heap.length source) := rfl
  rw [← hashEq]
  exact ⟨load_act_receive sound sameId own height replicas proposed grows rfl
      rfl,
    load_act_receive sound sameId own height replicas fetched grows rfl rfl⟩

omit anchored in
/-- A message pays for the event that it leads to. -/
theorem load_handle_message (height : Hash → Nat)
    (replicas : Finset ReplicaID) (message : Message) :
    (process.handle message.toAction).load height replicas rid ≤
      process.load height replicas rid + message.cost height := by
  unfold handle
  split
  swap
  · exact Nat.le_add_right _ _
  rename_i enabled
  cases message with
  | vote cert voter =>
      have paid : 2 * price (8 * height cert.hash + 3) + 32 ≤
          price (8 * height cert.hash + 4) := price_lt (by omega)
      have received : process.network.next (.vote cert voter) =
          { process.network with core := process.network.core }.receive
            (.vote cert voter) := rfl
      have arrived := load_act_receive sound sameId own height replicas
        received ⟨rfl, sound.attended.tree, .refl _⟩ rfl rfl
      change (process.act (.vote cert voter)).load height replicas rid ≤
        _ + price (8 * height cert.hash + 4)
      change _ ≤ _ + price (8 * height cert.hash + 3) at arrived
      omega
  | propose wireBlock proposer =>
      have paid : 2 * price (8 * height (hashHeader wireBlock.header) + 6) + 32 ≤
          price (8 * height (hashHeader wireBlock.header) + 7) :=
        price_lt (by omega)
      have arrived :=
        (load_act_block sound sameId own height replicas enabled.2).1
      change (process.act (.propose wireBlock proposer)).load height replicas
        rid ≤ _ + price (8 * height (hashHeader wireBlock.header) + 7)
      omega

omit anchored in
theorem load_handle_fetched (height : Hash → Nat)
    (replicas : Finset ReplicaID) (wireBlock : HotstuffBlockWire)
    (source : ReplicaID) :
    (process.handle (.fetched wireBlock source)).load height replicas rid <
      process.load height replicas rid +
        requestCost height (hashHeader wireBlock.header) := by
  have paid : 2 * price (8 * height (hashHeader wireBlock.header) + 1) + 32 ≤
      requestCost height (hashHeader wireBlock.header) := price_lt (by omega)
  unfold handle
  split
  · rename_i enabled
    have arrived :=
      (load_act_block sound sameId own height replicas enabled.2).2
    omega
  · omega

end Steps

theorem load_stepClient (height : Hash → Nat) (process : Process)
    {peer : ReplicaID} (member : peer ∈ replicas.erase rid)
    (action : HotstuffProtocolClient.Action Message) :
    (process.stepClient peer action).load height replicas rid +
        (process.otherClients peer).load height =
      process.load height replicas rid +
        ((process.otherClients peer).next action).load height := by
  have replaced := sum_update (fun _ (run : ClientRun Message) =>
    run.load height) member process.otherClients
      ((process.otherClients peer).next action)
  unfold load stepClient
  dsimp only
  omega

theorem load_stepWorker (height : Hash → Nat) (process : Process)
    {peer : ReplicaID} (member : peer ∈ replicas)
    (action : BlockFetchWorker.Action) :
    (process.stepWorker peer action).load height replicas rid +
        (process.queues peer).load height =
      process.load height replicas rid +
        ((process.queues peer).next action).load height := by
  have replaced := sum_update (fun _ (run : WorkerRun) => run.load height)
    member process.queues ((process.queues peer).next action)
  unfold load stepWorker
  dsimp only
  omega

end Process

end Prices

end Hotstuff
