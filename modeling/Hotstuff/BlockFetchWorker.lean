import Hotstuff.GarbageCollection
import Hotstuff.RpcClients
import Hotstuff.SymbolicCrypto
import Mathlib.Data.Finset.Basic
import Mathlib.Data.List.Count

/-!
# Requests for blocks

`BlockFetchWorker` asks one peer for blocks.  The hashes to ask for are a set;
the thread takes all of them into one request, and puts them back when the call
throws.  The blocks of an answer are handed to the network queue one by one.

`ReplicaFetchQueue`, which stands before the worker, keeps the contexts of its
requests.  From time to time it drops those whose block has been received.
-/

namespace Hotstuff

section Worker

variable [WireTypes]

structure BlockFetchWorker where
  reqs : Finset Hash
  /-- the request that the thread has taken -/
  req : List Hash
  /-- what the thread has still to hand on of the last answer -/
  responses : List HotstuffBlockWire
  rpc : NonblockingRpcClient

namespace BlockFetchWorker

def init : BlockFetchWorker := ⟨∅, [], [], .init⟩

def addRequest (worker : BlockFetchWorker) (request : Hash) :
    BlockFetchWorker :=
  { worker with reqs := insert request worker.reqs }

def moveTo (worker : BlockFetchWorker) (place : RpcPlace) : BlockFetchWorker :=
  { worker with rpc := { worker.rpc with place := place } }

/-- The wait in `run` ends; `extracted` lists the hashes of the set in its
order. -/
def wake (worker : BlockFetchWorker) (extracted : List Hash) :
    BlockFetchWorker :=
  if worker.rpc.doneFlag then worker.moveTo .returned
  else { worker with req := extracted, reqs := ∅ }.moveTo .entering

def enter (worker : BlockFetchWorker) : BlockFetchWorker :=
  { worker with rpc := worker.rpc.enter }

def tryOpen (worker : BlockFetchWorker) (opens : Bool) : BlockFetchWorker :=
  { worker with rpc := worker.rpc.tryOpen opens }

/-- The call throws, and `readd_request` puts the hashes back. -/
def fail (worker : BlockFetchWorker) : BlockFetchWorker :=
  { worker with
    reqs := worker.reqs ∪ worker.req.toFinset
    req := []
    rpc := worker.rpc.clear }.moveTo .waiting

def answer (worker : BlockFetchWorker) (responses : List HotstuffBlockWire) :
    BlockFetchWorker :=
  { worker with req := [], responses := responses }.moveTo .waiting

/-- The call of the peer, which answers with the blocks. -/
def call (worker : BlockFetchWorker) (outcome : CallOutcome)
    (responses : List HotstuffBlockWire) : BlockFetchWorker :=
  if worker.rpc.connected then
    match outcome with
    | .answered => worker.answer responses
    | .answerLost | .notDelivered => worker.fail
  else worker.moveTo .crashed

/-- The next block of the answer is handed on. -/
def handOn (worker : BlockFetchWorker) : BlockFetchWorker :=
  { worker with responses := worker.responses.tail }

/-- `terminate_worker` -/
def stop (worker : BlockFetchWorker) : BlockFetchWorker :=
  { worker with rpc := { worker.rpc with doneFlag := true } }

/-! ### Runs -/

inductive Action
  | addRequest (request : Hash)
  | wake (extracted : List Hash)
  | enter
  | tryOpen (opens : Bool)
  | call (outcome : CallOutcome) (responses : List HotstuffBlockWire)
  | handOn
  | stop

def Enabled (worker : BlockFetchWorker) : Action → Prop
  | .addRequest _ | .stop => True
  | .wake extracted => worker.rpc.place = .waiting ∧ worker.responses = [] ∧
      (worker.rpc.doneFlag = true ∨ worker.reqs ≠ ∅) ∧
      extracted.Nodup ∧ extracted.toFinset = worker.reqs
  | .enter => worker.rpc.place = .entering
  | .tryOpen _ => worker.rpc.place = .opening
  | .call _ _ => worker.rpc.place = .calling
  | .handOn => worker.rpc.place = .waiting ∧ worker.responses ≠ []

def next (worker : BlockFetchWorker) : Action → BlockFetchWorker
  | .addRequest request => worker.addRequest request
  | .wake extracted => worker.wake extracted
  | .enter => worker.enter
  | .tryOpen opens => worker.tryOpen opens
  | .call outcome responses => worker.call outcome responses
  | .handOn => worker.handOn
  | .stop => worker.stop

/-- Blocks come with answers only. -/
theorem mem_responses_next {worker : BlockFetchWorker} {action : Action}
    {wireBlock : HotstuffBlockWire}
    (member : wireBlock ∈ (worker.next action).responses) :
    wireBlock ∈ worker.responses ∨ ∃ outcome responses,
      action = .call outcome responses ∧ wireBlock ∈ responses := by
  cases action with
  | addRequest | stop | enter | tryOpen => exact .inl member
  | wake extracted =>
      left
      unfold BlockFetchWorker.next wake at member
      dsimp only at member
      split at member <;> exact member
  | handOn => exact .inl (List.mem_of_mem_tail member)
  | call outcome responses =>
      unfold BlockFetchWorker.next call at member
      dsimp only at member
      split at member
      · cases outcome with
        | answered => exact .inr ⟨_, _, rfl, member⟩
        | answerLost => exact .inl member
        | notDelivered => exact .inl member
      · exact .inl member

end BlockFetchWorker

/-- A worker with the hashes that it was asked for, the requests that were
answered, the blocks of the answers and those that were handed on. -/
structure WorkerRun where
  worker : BlockFetchWorker
  requested : List Hash
  answered : List (List Hash)
  received : List HotstuffBlockWire
  handedOn : List HotstuffBlockWire

namespace WorkerRun

open BlockFetchWorker (Action)

def init : WorkerRun := ⟨.init, [], [], [], []⟩

def next (run : WorkerRun) (action : Action) : WorkerRun :=
  let after := { run with worker := run.worker.next action }
  match action with
  | .addRequest request =>
      { after with requested := run.requested ++ [request] }
  | .call .answered responses =>
      if run.worker.rpc.connected then
        { after with
          answered := run.answered ++ [run.worker.req]
          received := run.received ++ responses }
      else after
  | .handOn =>
      { after with
        handedOn := run.handedOn ++ run.worker.responses.take 1 }
  | .call .answerLost _ | .call .notDelivered _ | .wake _ | .enter
  | .tryOpen _ | .stop => after

def system : TransitionSystem WorkerRun Action where
  initial := fun run => run = .init
  enabled := fun run action => run.worker.Enabled action
  next := next

/-- The hash waits, is in the current request, or was in one that was
answered. -/
def Accounted (run : WorkerRun) (hash : Hash) : Prop :=
  hash ∈ run.worker.reqs ∨ hash ∈ run.worker.req ∨
    ∃ request ∈ run.answered, hash ∈ request

structure Sound (run : WorkerRun) : Prop where
  rpc : run.worker.rpc.Sound
  starting : run.worker.rpc.place ≠ .starting
  waiting : run.worker.rpc.place = .waiting → run.worker.req = []
  calling : run.worker.rpc.place ≠ .waiting → run.worker.responses = []
  distinct : run.worker.req.Nodup
  some : run.worker.rpc.isBusy = true → run.worker.req ≠ []
  /-- no hash is forgotten, and no other one is asked for -/
  accounted : ∀ hash, hash ∈ run.requested ↔ run.Accounted hash
  answered : ∀ request ∈ run.answered, request ≠ [] ∧ request.Nodup
  handedOn : run.received = run.handedOn ++ run.worker.responses

theorem sound_init : init.Sound where
  rpc := NonblockingRpcClient.sound_init
  starting := nofun
  waiting := fun _ => rfl
  calling := fun _ => rfl
  distinct := List.nodup_nil
  some := nofun
  accounted := by simp [init, Accounted, BlockFetchWorker.init]
  answered := nofun
  handedOn := rfl

variable {run : WorkerRun}

theorem Sound.responses_of_calling (sound : run.Sound)
    (calling : run.worker.rpc.place = .calling) :
    run.worker.responses = [] := by
  apply sound.calling
  intro waiting
  cases calling.symm.trans waiting

theorem Sound.wake (sound : run.Sound) {extracted : List Hash}
    (allowed : run.worker.Enabled (.wake extracted)) :
    (run.next (.wake extracted)).Sound := by
  obtain ⟨waiting, handed, woken, distinct, enumerates⟩ := allowed
  have empty := sound.waiting waiting
  change { run with worker := run.worker.wake extracted }.Sound
  unfold BlockFetchWorker.wake
  split
  case isTrue stopped =>
    refine { sound with
      rpc := ?_, starting := ?_, waiting := ?_, calling := ?_, some := ?_ }
    · exact NonblockingRpcClient.sound_returned rfl stopped
    · intro starting
      cases starting
    · intro waiting
      cases waiting
    · exact fun _ => handed
    · intro busy
      cases busy
  case isFalse live =>
    have some := woken.resolve_left live
    refine { sound with
      rpc := NonblockingRpcClient.sound_outside rfl, starting := ?_,
      waiting := ?_, calling := ?_, distinct := distinct, some := ?_,
      accounted := ?_ }
    · intro starting
      cases starting
    · intro waiting
      cases waiting
    · exact fun _ => handed
    · rintro - rfl
      exact some enumerates.symm
    · intro hash
      have member : hash ∈ run.worker.reqs ↔ hash ∈ extracted := by
        rw [← enumerates, List.mem_toFinset]
      rw [sound.accounted hash, Accounted, Accounted, member, empty]
      simp [BlockFetchWorker.moveTo]

/-- A step that only changes the connection. -/
theorem Sound.connect (sound : run.Sound) {rpc : NonblockingRpcClient}
    (sane : rpc.Sound) (busy : run.worker.rpc.isBusy = true)
    (stillBusy : rpc.isBusy = true) (starting : rpc.place ≠ .starting) :
    { run with worker := { run.worker with rpc := rpc } }.Sound := by
  have handed : run.worker.responses = [] := by
    apply sound.calling
    intro waiting
    rw [NonblockingRpcClient.isBusy, waiting] at busy
    cases busy
  refine { sound with
    rpc := sane, starting := starting, waiting := ?_, calling := ?_,
    some := ?_ }
  · intro waiting
    have waiting : rpc.place = .waiting := waiting
    rw [NonblockingRpcClient.isBusy, waiting] at stillBusy
    cases stillBusy
  · exact fun _ => handed
  · exact fun _ => sound.some busy

theorem Sound.fail (sound : run.Sound) :
    { run with worker := run.worker.fail }.Sound := by
  refine { sound with
    rpc := NonblockingRpcClient.sound_outside rfl, starting := ?_,
    waiting := fun _ => rfl, calling := ?_, distinct := List.nodup_nil,
    some := ?_, accounted := ?_ }
  · intro starting
    cases starting
  · exact fun moved => (moved rfl).elim
  · intro busy
    cases busy
  · intro hash
    rw [sound.accounted hash, Accounted, Accounted]
    simp [BlockFetchWorker.fail, BlockFetchWorker.moveTo, or_assoc]

theorem Sound.answer (sound : run.Sound)
    (calling : run.worker.rpc.place = .calling)
    (responses : List HotstuffBlockWire) :
    { run with
      worker := run.worker.answer responses
      answered := run.answered ++ [run.worker.req]
      received := run.received ++ responses }.Sound := by
  have busy : run.worker.rpc.isBusy = true := by
    rw [NonblockingRpcClient.isBusy, calling]
  have handed := sound.responses_of_calling calling
  refine { sound with
    rpc := NonblockingRpcClient.sound_outside rfl, starting := ?_,
    waiting := fun _ => rfl, calling := ?_, distinct := List.nodup_nil,
    some := ?_, accounted := ?_, answered := ?_, handedOn := ?_ }
  · intro starting
    cases starting
  · exact fun moved => (moved rfl).elim
  · intro busy
    cases busy
  · intro hash
    rw [sound.accounted hash, Accounted, Accounted]
    simp [BlockFetchWorker.answer, BlockFetchWorker.moveTo, or_and_right,
      exists_or, or_comm]
  · intro request member
    rcases List.mem_append.mp member with earlier | new
    · exact sound.answered request earlier
    · rw [List.mem_singleton.mp new]
      exact ⟨sound.some busy, sound.distinct⟩
  · change run.received ++ responses = run.handedOn ++ responses
    rw [sound.handedOn, handed, List.append_nil]

theorem Sound.call (sound : run.Sound)
    (calling : run.worker.rpc.place = .calling) (outcome : CallOutcome)
    (responses : List HotstuffBlockWire) :
    (run.next (.call outcome responses)).Sound := by
  cases connected : run.worker.rpc.connected with
  | true =>
      have result : run.worker.call outcome responses =
          match outcome with
          | .answered => run.worker.answer responses
          | .answerLost | .notDelivered => run.worker.fail :=
        if_pos connected
      unfold next BlockFetchWorker.next
      dsimp only
      rw [result]
      cases outcome with
      | answered =>
          dsimp only
          rw [connected]
          exact sound.answer calling responses
      | answerLost => exact sound.fail
      | notDelivered => exact sound.fail
  | false =>
      have stopped := sound.rpc.stopped calling connected
      have result : (run.next (.call outcome responses)) =
          { run with worker := run.worker.moveTo .crashed } := by
        cases outcome <;>
          simp [next, BlockFetchWorker.next, BlockFetchWorker.call, connected]
      have handed := sound.responses_of_calling calling
      rw [result]
      refine { sound with
        rpc := ?_, starting := ?_, waiting := ?_, calling := ?_, some := ?_ }
      · exact NonblockingRpcClient.sound_crashed rfl stopped connected
      · intro starting
        cases starting
      · intro waiting
        cases waiting
      · exact fun _ => handed
      · intro busy
        cases busy

theorem Sound.next (sound : run.Sound) {action : Action}
    (allowed : run.worker.Enabled action) : (run.next action).Sound := by
  cases action with
  | addRequest request =>
      refine { sound with accounted := ?_ }
      intro hash
      have old := sound.accounted hash
      rw [Accounted] at old ⊢
      simp only [WorkerRun.next, BlockFetchWorker.next,
        BlockFetchWorker.addRequest, List.mem_append, List.mem_singleton,
        Finset.mem_insert, old]
      exact or_comm.trans or_assoc.symm
  | wake extracted => exact sound.wake allowed
  | enter =>
      have busy : run.worker.rpc.isBusy = true := by
        rw [NonblockingRpcClient.isBusy,
          show run.worker.rpc.place = _ from allowed]
      refine sound.connect (NonblockingRpcClient.sound_enter _) busy ?_ ?_ <;>
        unfold NonblockingRpcClient.enter
      · split <;> rfl
      · split <;> intro starting <;> cases starting
  | tryOpen opens =>
      have busy : run.worker.rpc.isBusy = true := by
        rw [NonblockingRpcClient.isBusy,
          show run.worker.rpc.place = _ from allowed]
      refine sound.connect (NonblockingRpcClient.sound_tryOpen allowed opens)
        busy ?_ ?_ <;> unfold NonblockingRpcClient.tryOpen
      · split
        · rfl
        · exact busy
      · split
        · intro starting
          cases starting
        · exact sound.starting
  | call outcome responses => exact sound.call allowed outcome responses
  | handOn =>
      obtain ⟨waiting, some⟩ := allowed
      refine { sound with calling := ?_, handedOn := ?_ }
      · exact fun moved => (moved waiting).elim
      · change run.received = run.handedOn ++ run.worker.responses.take 1 ++
          run.worker.responses.tail
        rw [List.append_assoc, ← List.drop_one, List.take_append_drop]
        exact sound.handedOn
  | stop =>
      refine { sound with rpc := ?_ }
      exact ⟨fun _ => .inr rfl, fun _ => rfl,
        fun crashed => ⟨rfl, (sound.rpc.crashed crashed).2⟩⟩

theorem sound_of_reachable (reached : system.Reachable run) : run.Sound := by
  refine reached.invariant Sound ?_ ?_
  · rintro start rfl
    exact sound_init
  · intro state action _ sound allowed
    exact sound.next allowed

/-! #### Progress -/

/-- A step of the thread in which nothing fails. -/
def succeeds : Action → Bool
  | .addRequest _ | .stop => false
  | .wake _ | .enter | .handOn => true
  | .tryOpen opens => opens
  | .call outcome _ => outcome == .answered

/-- A step towards an answer. -/
def isRequesting : Action → Bool
  | .wake _ | .enter | .tryOpen _ | .call _ _ => true
  | .addRequest _ | .handOn | .stop => false

/-- A bound on the number of requesting steps without failure. -/
def rank (run : WorkerRun) : Nat :=
  (if run.worker.reqs = ∅ then 0 else 4) + run.worker.rpc.place.rank

theorem rank_next (sound : run.Sound)
    (live : run.worker.rpc.doneFlag = false) {action : Action}
    (allowed : run.worker.Enabled action) (success : succeeds action = true) :
    (run.next action).rank + (if isRequesting action then 1 else 0) ≤
      run.rank := by
  cases action with
  | addRequest request => cases success
  | stop => cases success
  | handOn => exact Nat.le_refl _
  | wake extracted =>
      obtain ⟨waiting, -, woken, -⟩ := allowed
      have some : run.worker.reqs ≠ ∅ := by
        apply woken.resolve_left
        rw [live]
        nofun
      have after : (run.next (.wake extracted)).rank = 3 := by
        simp [rank, next, BlockFetchWorker.next, BlockFetchWorker.wake, live,
          BlockFetchWorker.moveTo, RpcPlace.rank]
      rw [after, rank, if_neg some]
      exact Nat.le_add_right _ _
  | enter =>
      have entering : run.worker.rpc.place = .entering := allowed
      have lower : run.worker.rpc.enter.place.rank < 3 := by
        unfold NonblockingRpcClient.enter
        split
        · change 1 < 3
          decide
        · change 2 < 3
          decide
      change _ + run.worker.rpc.enter.place.rank + 1 ≤ _
      rw [rank, entering, Nat.add_assoc]
      exact Nat.add_le_add_left lower _
  | tryOpen opens =>
      obtain rfl : opens = true := success
      have opening : run.worker.rpc.place = .opening := allowed
      change _ + 1 + 1 ≤ _
      rw [rank, opening]
      exact Nat.le_refl _
  | call outcome responses =>
      obtain rfl : outcome = .answered := eq_of_beq success
      have calling : run.worker.rpc.place = .calling := allowed
      have connected := sound.rpc.connected calling live
      have after : (run.next (.call .answered responses)).rank =
          if run.worker.reqs = ∅ then 0 else 4 := by
        simp [rank, next, BlockFetchWorker.next, BlockFetchWorker.call,
          connected, BlockFetchWorker.answer, BlockFetchWorker.moveTo,
          RpcPlace.rank]
      rw [after, rank, calling]
      exact Nat.le_refl _

theorem worker_next (run : WorkerRun) (action : Action) :
    (run.next action).worker = run.worker.next action := by
  unfold next
  split
  case h_2 => split <;> rfl
  all_goals rfl

theorem doneFlag_next (live : run.worker.rpc.doneFlag = false)
    {action : Action} (running : action ≠ .stop) :
    (run.next action).worker.rpc.doneFlag = false := by
  rw [worker_next]
  cases action with
  | stop => exact (running rfl).elim
  | addRequest | handOn => exact live
  | wake extracted =>
      unfold BlockFetchWorker.next BlockFetchWorker.wake
      dsimp only
      split <;> exact live
  | enter =>
      change run.worker.rpc.enter.doneFlag = false
      unfold NonblockingRpcClient.enter
      split <;> exact live
  | tryOpen opens =>
      change (run.worker.rpc.tryOpen opens).doneFlag = false
      unfold NonblockingRpcClient.tryOpen
      split <;> exact live
  | call outcome responses =>
      unfold BlockFetchWorker.next BlockFetchWorker.call
      dsimp only
      split
      · cases outcome <;> exact live
      · exact live

theorem ne_stop_of_succeeds {action : Action}
    (success : succeeds action = true) : action ≠ .stop := by
  rintro rfl
  cases success

/-- The thread has a step as long as a request is not answered. -/
theorem Sound.exists_succeeds (sound : run.Sound)
    (live : run.worker.rpc.doneFlag = false) {hash : Hash}
    (requested : hash ∈ run.requested)
    (unanswered : ∀ request ∈ run.answered, hash ∉ request) :
    ∃ action, succeeds action = true ∧ run.worker.Enabled action := by
  cases place : run.worker.rpc.place with
  | starting => exact (sound.starting place).elim
  | waiting =>
      by_cases handed : run.worker.responses = []
      · have waits : hash ∈ run.worker.reqs := by
          rcases (sound.accounted hash).mp requested with
            waits | inFlight | ⟨request, member, inside⟩
          · exact waits
          · rw [sound.waiting place] at inFlight
            cases inFlight
          · exact (unanswered request member inside).elim
        refine ⟨.wake run.worker.reqs.toList, rfl, place, handed, .inr ?_,
          Finset.nodup_toList _, Finset.toList_toFinset _⟩
        exact Finset.ne_empty_of_mem waits
      · exact ⟨.handOn, rfl, place, handed⟩
  | entering => exact ⟨.enter, rfl, place⟩
  | opening => exact ⟨.tryOpen true, rfl, place⟩
  | calling => exact ⟨.call .answered [], rfl, place⟩
  | returned => cases live.symm.trans (sound.rpc.returned place)
  | crashed => cases live.symm.trans (sound.rpc.crashed place).1

theorem Sound.rank_le (sound : run.Sound) : run.rank ≤ 7 := by
  have small : run.worker.rpc.place.rank ≤ 3 := by
    have notStarting := sound.starting
    cases place : run.worker.rpc.place with
    | starting => exact (notStarting place).elim
    | _ => decide
  unfold rank
  split <;> omega

end WorkerRun

end Worker

section Contexts

variable {Context : Type*}

/-- The loop of `ReplicaFetchQueue::do_gc`, from an index on. -/
def doGcFrom (isReceived : Context → Bool) (i : Nat)
    (outstandingReqs : List Context) : List Context :=
  if inside : i < outstandingReqs.length then
    let req := outstandingReqs[i]
    if isReceived req then
      doGcFrom isReceived i (swapRemove outstandingReqs i req)
    else doGcFrom isReceived (i + 1) outstandingReqs
  else outstandingReqs
termination_by outstandingReqs.length - i
decreasing_by
  · rw [length_swapRemove]
    omega
  · omega

/-- `GC_FREQ` -/
def gcFreq : Nat := 10

/-- What `ReplicaFetchQueue::add_request` does with the context. -/
def addContext (isReceived : Context → Bool) (outstandingReqs : List Context)
    (req : Context) : List Context :=
  let added := outstandingReqs ++ [req]
  if added.length > gcFreq then doGcFrom isReceived 0 added else added

theorem perm_drop_swapRemove {reqs : List Context} {i : Nat} {req : Context}
    (found : reqs[i]? = some req) :
    (reqs.drop i).Perm (req :: (swapRemove reqs i req).drop i) := by
  have inside := (List.getElem?_eq_some_iff.mp found).1
  apply (List.perm_append_left_iff (reqs.take i)).mp
  calc reqs.take i ++ reqs.drop i
    _ = reqs := List.take_append_drop i reqs
    List.Perm _ (req :: swapRemove reqs i req) := perm_swapRemove found
    _ = req :: (reqs.take i ++ (swapRemove reqs i req).drop i) := by
      rw [← take_swapRemove inside, List.take_append_drop]
    List.Perm _ (reqs.take i ++ req :: (swapRemove reqs i req).drop i) :=
      List.perm_middle.symm

/-- From the index on, the received contexts are dropped and no others. -/
theorem perm_doGcFrom (isReceived : Context → Bool) (i : Nat)
    (outstandingReqs : List Context) :
    (doGcFrom isReceived i outstandingReqs).Perm
      (outstandingReqs.take i ++
        (outstandingReqs.drop i).filter (! isReceived ·)) := by
  fun_induction doGcFrom isReceived i outstandingReqs with
  | case1 i reqs inside req received ih =>
      refine ih.trans ?_
      rw [take_swapRemove inside]
      apply List.Perm.append_left
      have rest := (perm_drop_swapRemove
        (List.getElem?_eq_getElem inside)).filter (! isReceived ·)
      rw [List.filter_cons_of_neg (by simp [received, req])] at rest
      exact rest.symm
  | case2 i reqs inside req kept ih =>
      refine ih.trans (List.Perm.of_eq ?_)
      rw [List.drop_eq_getElem_cons inside,
        List.filter_cons_of_pos (by simp [kept, req]), List.take_add_one,
        List.getElem?_eq_getElem inside, Option.toList_some,
        List.append_assoc, List.singleton_append]
  | case3 i reqs outside =>
      rw [List.take_of_length_le (by omega), List.drop_eq_nil_of_le (by omega)]
      simp

/-- Contexts are added to the queue of a peer, and blocks are received. -/
inductive ContextCall (Context : Type*)
  | addRequest (req : Context)
  | markReceived (req : Context)

/-- The contexts of a fetch queue, the marks on contexts, and all contexts that
were added. -/
structure FetchQueueRun (Context : Type*) where
  outstandingReqs : List Context
  isReceived : Context → Bool
  added : List Context

namespace FetchQueueRun

variable [DecidableEq Context]

def init : FetchQueueRun Context := ⟨[], fun _ => false, []⟩

def next (run : FetchQueueRun Context) :
    ContextCall Context → FetchQueueRun Context
  | .addRequest req =>
      { run with
        outstandingReqs := addContext run.isReceived run.outstandingReqs req
        added := run.added ++ [req] }
  | .markReceived req =>
      { run with isReceived := Function.update run.isReceived req true }

def after (calls : List (ContextCall Context)) : FetchQueueRun Context :=
  calls.foldl next init

/-- Nothing is kept that was not added, and no context whose block is missing
is dropped. -/
structure Sound (run : FetchQueueRun Context) : Prop where
  kept : ∀ req, run.isReceived req = false →
    run.outstandingReqs.count req = run.added.count req
  fewer : ∀ req, run.outstandingReqs.count req ≤ run.added.count req

variable {run : FetchQueueRun Context}

theorem count_addContext (isReceived : Context → Bool) (reqs : List Context)
    (req other : Context) :
    (addContext isReceived reqs req).count other ≤
        (reqs ++ [req]).count other ∧
      (isReceived other = false →
        (addContext isReceived reqs req).count other =
          (reqs ++ [req]).count other) := by
  unfold addContext
  dsimp only
  split
  case isFalse => exact ⟨Nat.le_refl _, fun _ => rfl⟩
  case isTrue =>
    have perm := perm_doGcFrom isReceived 0 (reqs ++ [req])
    rw [List.take_zero, List.nil_append, List.drop_zero] at perm
    rw [perm.count_eq]
    constructor
    · exact List.filter_sublist.count_le other
    · intro missing
      rw [List.count_filter (by simp [missing])]

theorem Sound.next (sound : run.Sound) (call : ContextCall Context) :
    (run.next call).Sound := by
  cases call with
  | addRequest req =>
      constructor
      · intro other missing
        have counted :=
          (count_addContext run.isReceived run.outstandingReqs req other).2
            missing
        change (addContext _ _ _).count other = (run.added ++ [req]).count other
        rw [counted, List.count_append, List.count_append,
          sound.kept other missing]
      · intro other
        have counted :=
          (count_addContext run.isReceived run.outstandingReqs req other).1
        have fewer := sound.fewer other
        change (addContext _ _ _).count other ≤ (run.added ++ [req]).count other
        rw [List.count_append] at counted ⊢
        omega
  | markReceived req =>
      refine ⟨?_, sound.fewer⟩
      intro other missing
      apply sound.kept other
      by_cases same : other = req
      · subst same
        rw [show (run.next (.markReceived other)).isReceived other = _ from
          Function.update_self ..] at missing
        cases missing
      · rwa [show (run.next (.markReceived req)).isReceived other = _ from
          Function.update_of_ne same ..] at missing

theorem sound_after (calls : List (ContextCall Context)) :
    (after calls).Sound := by
  suffices ∀ run : FetchQueueRun Context, run.Sound →
      (calls.foldl next run).Sound from
    this init ⟨fun _ _ => rfl, fun _ => Nat.le_refl _⟩
  induction calls with
  | nil => exact fun _ sound => sound
  | cons call calls ih => exact fun run sound => ih _ (sound.next call)

/-- When more than ten contexts are kept, all of them have been looked at. -/
theorem unreceived_of_many {req : Context}
    (many : gcFreq < (run.next (.addRequest req)).outstandingReqs.length) :
    ∀ other ∈ (run.next (.addRequest req)).outstandingReqs,
      run.isReceived other = false := by
  change gcFreq < (addContext _ _ _).length at many
  change ∀ other ∈ addContext _ _ _, run.isReceived other = false
  unfold addContext at many ⊢
  dsimp only at many ⊢
  split at many
  case isFalse few => exact (few many).elim
  case isTrue =>
    rw [if_pos (by assumption)]
    have perm := perm_doGcFrom run.isReceived 0 (run.outstandingReqs ++ [req])
    rw [List.take_zero, List.nil_append, List.drop_zero] at perm
    intro other member
    have kept := List.mem_filter.mp (perm.mem_iff.mp member)
    simpa using kept.2

end FetchQueueRun

/-- In any sequence of calls, a fetch queue drops no context whose block is
missing.  After a request it holds at most ten contexts, unless more than ten
blocks are missing, and then it holds the contexts of these only. -/
theorem fetch_queue_bounded {Context : Type*} [DecidableEq Context]
    (calls : List (ContextCall Context)) (req : Context) :
    let run := (FetchQueueRun.after calls).next (.addRequest req)
    (∀ other, run.isReceived other = false →
      run.outstandingReqs.count other = run.added.count other) ∧
    run.outstandingReqs.length ≤
      max gcFreq (run.added.countP (! run.isReceived ·)) := by
  intro run
  have sound : run.Sound :=
    (FetchQueueRun.sound_after calls).next (.addRequest req)
  refine ⟨sound.kept, ?_⟩
  by_cases many : gcFreq < run.outstandingReqs.length
  case neg => exact le_max_of_le_left (Nat.le_of_not_lt many)
  apply le_max_of_le_right
  have collected : ∀ other ∈ run.outstandingReqs,
      run.isReceived other = false := FetchQueueRun.unreceived_of_many many
  have perm : run.outstandingReqs.Perm
      (run.added.filter (! run.isReceived ·)) := by
    apply List.perm_iff_count.mpr
    intro other
    cases missing : run.isReceived other with
    | false => rw [List.count_filter (by simp [missing]), sound.kept _ missing]
    | true =>
        have gone : other ∉ run.outstandingReqs := by
          intro member
          rw [collected other member] at missing
          cases missing
        have filtered : other ∉ run.added.filter (! run.isReceived ·) := by
          simp [missing]
        rw [List.count_eq_zero.mpr gone, List.count_eq_zero.mpr filtered]
  rw [perm.length_eq, List.countP_eq_length_filter]

end Contexts

end Hotstuff
