import Hotstuff.TransitionSystem

/-!
# Calls to other replicas

A replica has two clients for each of its peers.  `HotstuffProtocolClient`, which
is modelled here, sends votes and proposals, one after the other, and repeats a
call until the peer has answered.  The other one asks for blocks.  Each client
has a thread, and both keep their connection with `NonblockingRpcClient`: a call
opens the connection if there is none, and an exception closes it.

A call may fail before or after the peer has got it.  The thread of the peer and
the network are therefore only present in the outcome of a call.  `done_flag`,
which `AsyncWorker` sets when the client is destroyed, may be set at any time.
-/

namespace Hotstuff

/-! ### The connection -/

/-- Where the thread of a client is. -/
inductive RpcPlace
  /-- in the wait for work -/
  | waiting
  /-- work has been taken -/
  | starting
  /-- at the start of `wait_for_try_open_connection` -/
  | entering
  /-- in the loop of `wait_for_try_open_connection` -/
  | opening
  /-- about to call the peer -/
  | calling
  /-- `run` has returned -/
  | returned
  /-- a method of a null client was called -/
  | crashed
  deriving DecidableEq

/-- How many steps without failure the thread can take at a place, until its
call is answered. -/
def RpcPlace.rank : RpcPlace → Nat
  | .starting => 4
  | .entering => 3
  | .opening => 2
  | .calling => 1
  | .waiting | .returned | .crashed => 0

structure NonblockingRpcClient where
  place : RpcPlace
  /-- `client` is not null -/
  connected : Bool
  doneFlag : Bool

/-- What comes of a call that reaches for the peer. -/
inductive CallOutcome
  | answered
  /-- the peer has got the call, but the answer is lost -/
  | answerLost
  | notDelivered
  deriving DecidableEq

def CallOutcome.reachesPeer : CallOutcome → Bool
  | answered | answerLost => true
  | notDelivered => false

namespace NonblockingRpcClient

def init : NonblockingRpcClient := ⟨.waiting, false, false⟩

/-- The thread is inside of a call. -/
def isBusy (rpc : NonblockingRpcClient) : Bool :=
  match rpc.place with
  | .starting | .entering | .opening | .calling => true
  | .waiting | .returned | .crashed => false

/-- The first test of `wait_for_try_open_connection`. -/
def enter (rpc : NonblockingRpcClient) : NonblockingRpcClient :=
  if rpc.connected || rpc.doneFlag then { rpc with place := .calling }
  else { rpc with place := .opening }

/-- One round of the loop; `opens` says whether `open_connection` succeeds. -/
def tryOpen (rpc : NonblockingRpcClient) (opens : Bool) :
    NonblockingRpcClient :=
  if opens || rpc.doneFlag then
    { rpc with connected := opens, place := .calling }
  else { rpc with connected := opens }

/-- `clear_connection` -/
def clear (rpc : NonblockingRpcClient) : NonblockingRpcClient :=
  { rpc with connected := false }

/-- What is known about the connection at each place. -/
structure Sound (rpc : NonblockingRpcClient) : Prop where
  calling : rpc.place = .calling → rpc.connected = true ∨ rpc.doneFlag = true
  returned : rpc.place = .returned → rpc.doneFlag = true
  crashed : rpc.place = .crashed →
    rpc.doneFlag = true ∧ rpc.connected = false

/-- The thread is before or after a call, and has not ended. -/
def isOutside (rpc : NonblockingRpcClient) : Bool :=
  match rpc.place with
  | .waiting | .starting | .entering | .opening => true
  | .calling | .returned | .crashed => false

theorem sound_outside {rpc : NonblockingRpcClient}
    (outside : rpc.isOutside = true) : rpc.Sound := by
  constructor <;> intro place <;> rw [isOutside, place] at outside <;>
    cases outside

theorem sound_calling {rpc : NonblockingRpcClient}
    (calling : rpc.place = .calling)
    (ready : (rpc.connected || rpc.doneFlag) = true) : rpc.Sound := by
  constructor
  · exact fun _ => by simpa using ready
  · intro returned
    cases calling.symm.trans returned
  · intro crashed
    cases calling.symm.trans crashed

theorem sound_init : init.Sound := sound_outside rfl

theorem sound_enter (rpc : NonblockingRpcClient) : rpc.enter.Sound := by
  unfold NonblockingRpcClient.enter
  split
  case isTrue ready => exact sound_calling rfl ready
  case isFalse => exact sound_outside rfl

theorem sound_tryOpen {rpc : NonblockingRpcClient}
    (inside : rpc.place = .opening) (opens : Bool) :
    (rpc.tryOpen opens).Sound := by
  unfold NonblockingRpcClient.tryOpen
  split
  case isTrue ready => exact sound_calling rfl ready
  case isFalse =>
    apply sound_outside
    rw [isOutside, inside]

variable {rpc : NonblockingRpcClient}

theorem Sound.connected (sound : rpc.Sound) (calling : rpc.place = .calling)
    (live : rpc.doneFlag = false) : rpc.connected = true := by
  rcases sound.calling calling with connected | stopped
  · exact connected
  · cases live.symm.trans stopped

/-- A null client is only called after the client was stopped. -/
theorem Sound.stopped (sound : rpc.Sound) (calling : rpc.place = .calling)
    (null : rpc.connected = false) : rpc.doneFlag = true := by
  rcases sound.calling calling with connected | stopped
  · cases null.symm.trans connected
  · exact stopped

theorem sound_returned (returned : rpc.place = .returned)
    (stopped : rpc.doneFlag = true) : rpc.Sound := by
  constructor
  · intro calling
    cases returned.symm.trans calling
  · exact fun _ => stopped
  · intro crashed
    cases returned.symm.trans crashed

theorem sound_crashed (crashed : rpc.place = .crashed)
    (stopped : rpc.doneFlag = true) (null : rpc.connected = false) :
    rpc.Sound := by
  constructor
  · intro calling
    cases crashed.symm.trans calling
  · exact fun _ => stopped
  · exact fun _ => ⟨stopped, null⟩

end NonblockingRpcClient

/-! ### Votes and proposals -/

structure HotstuffProtocolClient (Msg : Type*) where
  work : List Msg
  /-- what `do_work` has still to send, the message of the current call first -/
  todo : List Msg
  rpc : NonblockingRpcClient

namespace HotstuffProtocolClient

variable {Msg : Type*}

def init : HotstuffProtocolClient Msg := ⟨[], [], .init⟩

/-- `propose` and `vote` -/
def submit (client : HotstuffProtocolClient Msg) (msg : Msg) :
    HotstuffProtocolClient Msg :=
  { client with work := client.work ++ [msg] }

def moveTo (client : HotstuffProtocolClient Msg) (place : RpcPlace) :
    HotstuffProtocolClient Msg :=
  { client with rpc := { client.rpc with place := place } }

/-- The wait in `run` ends. -/
def wake (client : HotstuffProtocolClient Msg) : HotstuffProtocolClient Msg :=
  if client.rpc.doneFlag then client.moveTo .returned
  else { client with todo := client.work, work := [] }.moveTo .starting

/-- `do_work` returns, and its list is gone. -/
def leave (client : HotstuffProtocolClient Msg) : HotstuffProtocolClient Msg :=
  { client with todo := [] }.moveTo .waiting

/-- The start of `do_work`. -/
def start (client : HotstuffProtocolClient Msg) : HotstuffProtocolClient Msg :=
  if client.rpc.doneFlag then client.leave else client.moveTo .entering

def enter (client : HotstuffProtocolClient Msg) : HotstuffProtocolClient Msg :=
  { client with rpc := client.rpc.enter }

def tryOpen (client : HotstuffProtocolClient Msg) (opens : Bool) :
    HotstuffProtocolClient Msg :=
  { client with rpc := client.rpc.tryOpen opens }

/-- The next message, or back to the wait. -/
def advance (client : HotstuffProtocolClient Msg) :
    HotstuffProtocolClient Msg :=
  match client.todo.tail with
  | [] => client.leave
  | rest => { client with todo := rest }.moveTo .entering

/-- The call throws. -/
def fail (client : HotstuffProtocolClient Msg) : HotstuffProtocolClient Msg :=
  let cleared := { client with rpc := client.rpc.clear }
  if client.rpc.doneFlag then cleared.leave else cleared.moveTo .entering

/-- The call of the peer in `do_work`. -/
def call (client : HotstuffProtocolClient Msg) (outcome : CallOutcome) :
    HotstuffProtocolClient Msg :=
  if client.rpc.connected then
    match outcome with
    | .answered => client.advance
    | .answerLost | .notDelivered => client.fail
  else client.moveTo .crashed

/-- `terminate_worker` -/
def stop (client : HotstuffProtocolClient Msg) : HotstuffProtocolClient Msg :=
  { client with rpc := { client.rpc with doneFlag := true } }

/-! #### Steps -/

inductive Action (Msg : Type*)
  | submit (msg : Msg)
  | wake
  | start
  | enter
  | tryOpen (opens : Bool)
  | call (outcome : CallOutcome)
  | stop

def Enabled (client : HotstuffProtocolClient Msg) : Action Msg → Prop
  | .submit _ | .stop => True
  | .wake => client.rpc.place = .waiting ∧
      (client.rpc.doneFlag = true ∨ client.work ≠ [])
  | .start => client.rpc.place = .starting
  | .enter => client.rpc.place = .entering
  | .tryOpen _ => client.rpc.place = .opening
  | .call _ => client.rpc.place = .calling

def next (client : HotstuffProtocolClient Msg) :
    Action Msg → HotstuffProtocolClient Msg
  | .submit msg => client.submit msg
  | .wake => client.wake
  | .start => client.start
  | .enter => client.enter
  | .tryOpen opens => client.tryOpen opens
  | .call outcome => client.call outcome
  | .stop => client.stop

/-! #### What the client has to send -/

/-- The messages that are not acknowledged are those of `do_work`, followed by
those that wait.  Once it is stopped, the client may forget them. -/
structure Holds (client : HotstuffProtocolClient Msg) (due : List Msg) :
    Prop where
  rpc : client.rpc.Sound
  working : client.rpc.isBusy = true → client.todo ≠ []
  resting : client.rpc.place = .waiting → client.todo = []
  remaining : client.rpc.doneFlag = false ∨ client.rpc.isBusy = true →
    due = client.todo ++ client.work

theorem holds_init : (init : HotstuffProtocolClient Msg).Holds [] where
  rpc := NonblockingRpcClient.sound_init
  working := nofun
  resting := fun _ => rfl
  remaining := fun _ => rfl

variable {client : HotstuffProtocolClient Msg} {due : List Msg}

/-- The client is inside of `do_work`. -/
theorem holds_busy (rpc : client.rpc.Sound)
    (busy : client.rpc.isBusy = true) (some : client.todo ≠ [])
    (remaining : due = client.todo ++ client.work) : client.Holds due where
  rpc := rpc
  working := fun _ => some
  resting := by
    intro waiting
    rw [NonblockingRpcClient.isBusy, waiting] at busy
    cases busy
  remaining := fun _ => remaining

/-- The client is outside of `do_work`. -/
theorem holds_idle (place : client.rpc.place = .waiting ∨
      client.rpc.place = .returned ∧ client.rpc.doneFlag = true)
    (empty : client.todo = [])
    (remaining : client.rpc.doneFlag = false → due = client.work) :
    client.Holds due := by
  have idle : client.rpc.isBusy = false := by
    rw [NonblockingRpcClient.isBusy]
    rcases place with place | ⟨place, -⟩ <;> rw [place]
  constructor
  case rpc =>
    rcases place with waiting | ⟨returned, stopped⟩
    · apply NonblockingRpcClient.sound_outside
      rw [NonblockingRpcClient.isOutside, waiting]
    · exact NonblockingRpcClient.sound_returned returned stopped
  case working =>
    intro busy
    cases idle.symm.trans busy
  case resting => exact fun _ => empty
  case remaining =>
    intro live
    rw [empty, List.nil_append]
    rcases live with live | busy
    · exact remaining live
    · cases idle.symm.trans busy

namespace Holds

theorem submit (holds : client.Holds due) (msg : Msg) :
    (client.submit msg).Holds (due ++ [msg]) where
  rpc := holds.rpc
  working := holds.working
  resting := holds.resting
  remaining := by
    intro live
    rw [holds.remaining live, List.append_assoc]
    rfl

theorem wake (holds : client.Holds due)
    (waiting : client.rpc.place = .waiting)
    (woken : client.rpc.doneFlag = true ∨ client.work ≠ []) :
    client.wake.Holds due := by
  have empty := holds.resting waiting
  unfold HotstuffProtocolClient.wake
  split
  case isTrue stopped =>
    refine holds_idle (.inr ⟨rfl, stopped⟩) empty ?_
    intro live
    cases stopped.symm.trans live
  case isFalse live =>
    have notStopped : client.rpc.doneFlag = false := by simpa using live
    have some := woken.resolve_left live
    refine holds_busy (NonblockingRpcClient.sound_outside rfl) rfl some ?_
    rw [holds.remaining (.inl notStopped), empty, List.nil_append]
    exact (List.append_nil _).symm

/-- `do_work` returns because the client is stopped. -/
theorem leave (stopped : client.rpc.doneFlag = true) :
    client.leave.Holds due := by
  apply holds_idle (.inl rfl) rfl
  intro live
  cases stopped.symm.trans live

theorem start (holds : client.Holds due)
    (busy : client.rpc.isBusy = true) : client.start.Holds due := by
  unfold HotstuffProtocolClient.start
  split
  case isTrue stopped => exact leave stopped
  case isFalse live =>
    exact holds_busy (NonblockingRpcClient.sound_outside rfl) rfl
      (holds.working busy) (holds.remaining (.inr busy))

theorem enter (holds : client.Holds due)
    (busy : client.rpc.isBusy = true) : client.enter.Holds due := by
  refine holds_busy (NonblockingRpcClient.sound_enter _) ?_
    (holds.working busy) (holds.remaining (.inr busy))
  change client.rpc.enter.isBusy = true
  unfold NonblockingRpcClient.enter
  split <;> rfl

theorem tryOpen (holds : client.Holds due)
    (opening : client.rpc.place = .opening) (opens : Bool) :
    (client.tryOpen opens).Holds due := by
  have busy : client.rpc.isBusy = true := by
    rw [NonblockingRpcClient.isBusy, opening]
  refine holds_busy (NonblockingRpcClient.sound_tryOpen opening opens) ?_
    (holds.working busy) (holds.remaining (.inr busy))
  change (client.rpc.tryOpen opens).isBusy = true
  unfold NonblockingRpcClient.tryOpen
  split
  · rfl
  · exact busy

theorem advance (holds : client.Holds due)
    (busy : client.rpc.isBusy = true) : client.advance.Holds due.tail := by
  have some := holds.working busy
  have remaining : due.tail = client.todo.tail ++ client.work := by
    rw [holds.remaining (.inr busy), List.tail_append_of_ne_nil some]
  unfold HotstuffProtocolClient.advance
  split
  case h_1 last =>
    apply holds_idle (.inl rfl) rfl
    intro _
    rw [remaining, last]
    rfl
  case h_2 rest more =>
    exact holds_busy (NonblockingRpcClient.sound_outside rfl) rfl more remaining

theorem fail (holds : client.Holds due)
    (busy : client.rpc.isBusy = true) : client.fail.Holds due := by
  unfold HotstuffProtocolClient.fail
  split
  case isTrue stopped => exact leave stopped
  case isFalse live =>
    exact holds_busy (NonblockingRpcClient.sound_outside rfl) rfl
      (holds.working busy) (holds.remaining (.inr busy))

theorem crash (holds : client.Holds due)
    (calling : client.rpc.place = .calling)
    (null : client.rpc.connected = false) :
    (client.moveTo .crashed).Holds due := by
  have stopped := holds.rpc.stopped calling null
  constructor
  case rpc => exact NonblockingRpcClient.sound_crashed rfl stopped null
  case working =>
    intro busy
    cases busy
  case resting =>
    intro waiting
    cases waiting
  case remaining =>
    intro live
    rcases live with live | busy
    · cases stopped.symm.trans live
    · cases busy

theorem stop (holds : client.Holds due) : client.stop.Holds due where
  rpc := ⟨fun _ => .inr rfl, fun _ => rfl,
    fun crashed => ⟨rfl, (holds.rpc.crashed crashed).2⟩⟩
  working := holds.working
  resting := holds.resting
  remaining := by
    intro live
    rcases live with live | busy
    · cases live
    · exact holds.remaining (.inr busy)

end Holds

/-! #### Progress -/

/-- A bound on the number of steps without failure. -/
def rank (client : HotstuffProtocolClient Msg) : Nat :=
  5 * client.work.length + 3 * client.todo.tail.length +
    client.rpc.place.rank

theorem rank_eq {place : RpcPlace} (here : client.rpc.place = place) :
    client.rank = 5 * client.work.length + 3 * client.todo.tail.length +
      place.rank := by
  rw [rank, here]

theorem rank_wake (live : client.rpc.doneFlag = false)
    (some : client.work ≠ []) : client.wake.rank < client.rank := by
  have positive := List.length_pos_iff.mpr some
  have shorter := List.length_tail (l := client.work)
  have bound : 5 * client.work.length ≤ client.rank := by
    rw [rank]
    omega
  unfold wake
  rw [live]
  change 5 * 0 + 3 * client.work.tail.length + 4 < _
  omega

theorem rank_start (live : client.rpc.doneFlag = false)
    (starting : client.rpc.place = .starting) :
    client.start.rank < client.rank := by
  rw [rank_eq starting]
  unfold start
  rw [live]
  exact Nat.lt_succ_self _

theorem rank_enter (entering : client.rpc.place = .entering) :
    client.enter.rank < client.rank := by
  rw [rank_eq entering]
  apply Nat.add_lt_add_left
  unfold enter NonblockingRpcClient.enter
  dsimp only
  split
  · change 1 < 3
    decide
  · change 2 < 3
    decide

theorem rank_tryOpen (opening : client.rpc.place = .opening) :
    (client.tryOpen true).rank < client.rank := by
  rw [rank_eq opening]
  exact Nat.lt_succ_self _

theorem rank_advance (calling : client.rpc.place = .calling) :
    client.advance.rank < client.rank := by
  rw [rank_eq calling]
  unfold advance
  split
  case h_1 last =>
    change 5 * client.work.length + 3 * 0 + 0 < _ + 1
    omega
  case h_2 rest more =>
    have positive := List.length_pos_iff.mpr more
    have shorter := List.length_tail (l := client.todo.tail)
    change 5 * client.work.length + 3 * client.todo.tail.tail.length + 3 <
      _ + 1
    omega

theorem Holds.rank_le (holds : client.Holds due)
    (live : client.rpc.doneFlag = false) : client.rank ≤ 5 * due.length := by
  have small : client.rpc.place.rank ≤ 4 := by
    cases client.rpc.place <;> decide
  rw [rank, holds.remaining (.inl live), List.length_append, List.length_tail]
  by_cases busy : client.rpc.isBusy = true
  · have positive := List.length_pos_iff.mpr (holds.working busy)
    omega
  · have zero : client.rpc.place.rank = 0 := by
      unfold NonblockingRpcClient.isBusy at busy
      cases place : client.rpc.place <;> simp_all [RpcPlace.rank]
    omega

end HotstuffProtocolClient

/-! #### What the peer gets -/

/-- The messages that were handed to a client, how many of them the peer has
acknowledged, and the numbers of those that have reached the peer, in the order
of their arrivals. -/
structure Deliveries (Msg : Type*) where
  submitted : List Msg
  acknowledged : Nat
  delivered : List Nat

namespace Deliveries

variable {Msg : Type*}

def submit (history : Deliveries Msg) (msg : Msg) : Deliveries Msg :=
  { history with submitted := history.submitted ++ [msg] }

/-- The current message, the first one that is not acknowledged, arrives. -/
def arrive (history : Deliveries Msg) : Deliveries Msg :=
  { history with delivered := history.delivered ++ [history.acknowledged] }

def call (history : Deliveries Msg) : CallOutcome → Deliveries Msg
  | .answered =>
      { history.arrive with acknowledged := history.acknowledged + 1 }
  | .answerLost => history.arrive
  | .notDelivered => history

/-- The messages that are not acknowledged. -/
def due (history : Deliveries Msg) : List Msg :=
  history.submitted.drop history.acknowledged

/-- The peer gets the messages in the order in which they were handed in.  Each
message is repeated until it is acknowledged, and the next one is only sent
then. -/
structure InOrder (history : Deliveries Msg) : Prop where
  ordered : history.delivered.Pairwise (· ≤ ·)
  arrived : ∀ number < history.acknowledged, number ∈ history.delivered
  /-- besides, only the first message without acknowledgement may have
  arrived -/
  current : ∀ number ∈ history.delivered,
    number ≤ history.acknowledged ∧ number < history.submitted.length
  acknowledged_le : history.acknowledged ≤ history.submitted.length

theorem inOrder_nil : (⟨[], 0, []⟩ : Deliveries Msg).InOrder where
  ordered := .nil
  arrived := nofun
  current := nofun
  acknowledged_le := Nat.le_refl _

variable {history : Deliveries Msg}

theorem InOrder.submit (inOrder : history.InOrder) (msg : Msg) :
    (history.submit msg).InOrder := by
  have longer : (history.submit msg).submitted.length =
      history.submitted.length + 1 := List.length_append
  refine ⟨inOrder.ordered, inOrder.arrived, ?_, ?_⟩
  · intro number member
    obtain ⟨upTo, inside⟩ := inOrder.current number member
    exact ⟨upTo, by omega⟩
  · have bound := inOrder.acknowledged_le
    change history.acknowledged ≤ _
    omega

theorem InOrder.arrive (inOrder : history.InOrder)
    (unfinished : history.acknowledged < history.submitted.length) :
    history.arrive.InOrder := by
  refine ⟨?_, ?_, ?_, inOrder.acknowledged_le⟩
  · apply List.pairwise_append.mpr
    refine ⟨inOrder.ordered, List.pairwise_singleton _ _, ?_⟩
    intro number member last isLast
    rw [List.mem_singleton.mp isLast]
    exact (inOrder.current number member).1
  · intro number below
    exact List.mem_append_left _ (inOrder.arrived number below)
  · intro number member
    rcases List.mem_append.mp member with earlier | current
    · exact inOrder.current number earlier
    · rw [List.mem_singleton.mp current]
      exact ⟨Nat.le_refl _, unfinished⟩

theorem InOrder.call (inOrder : history.InOrder)
    (unfinished : history.acknowledged < history.submitted.length)
    (outcome : CallOutcome) : (history.call outcome).InOrder := by
  cases outcome with
  | notDelivered => exact inOrder
  | answerLost => exact inOrder.arrive unfinished
  | answered =>
      have arrived := inOrder.arrive unfinished
      refine ⟨arrived.ordered, ?_, ?_, unfinished⟩
      · intro number below
        rcases Nat.lt_succ_iff_lt_or_eq.mp below with below | rfl
        · exact arrived.arrived number below
        · exact List.mem_append_right _ (List.mem_singleton_self _)
      · intro number member
        obtain ⟨upTo, inside⟩ := arrived.current number member
        exact ⟨Nat.le_succ_of_le upTo, inside⟩

theorem due_submit (inOrder : history.InOrder) (msg : Msg) :
    (history.submit msg).due = history.due ++ [msg] :=
  List.drop_append_of_le_length inOrder.acknowledged_le

theorem due_answered : (history.call .answered).due = history.due.tail :=
  List.tail_drop.symm

end Deliveries

structure ClientRun (Msg : Type*) where
  client : HotstuffProtocolClient Msg
  history : Deliveries Msg

namespace ClientRun

variable {Msg : Type*}

def init : ClientRun Msg := ⟨.init, ⟨[], 0, []⟩⟩

open HotstuffProtocolClient (Action)

def next (run : ClientRun Msg) (action : Action Msg) : ClientRun Msg where
  client := run.client.next action
  history :=
    match action with
    | .submit msg => run.history.submit msg
    | .call outcome =>
        if run.client.rpc.connected then run.history.call outcome
        else run.history
    | .wake | .start | .enter | .tryOpen _ | .stop => run.history

def system (Msg : Type*) : TransitionSystem (ClientRun Msg) (Action Msg) where
  initial := fun run => run = .init
  enabled := fun run action => run.client.Enabled action
  next := next

structure Sound (run : ClientRun Msg) : Prop where
  inOrder : run.history.InOrder
  holds : run.client.Holds run.history.due

variable {run : ClientRun Msg}

theorem Sound.unfinished (sound : run.Sound)
    (busy : run.client.rpc.isBusy = true) :
    run.history.acknowledged < run.history.submitted.length := by
  apply Nat.lt_of_not_le
  intro all
  apply sound.holds.working busy
  have remaining := sound.holds.remaining (.inr busy)
  rw [Deliveries.due, List.drop_eq_nil_of_le all] at remaining
  exact (List.append_eq_nil_iff.mp remaining.symm).1

theorem Sound.call (sound : run.Sound) {outcome : CallOutcome}
    (calling : run.client.rpc.place = .calling) :
    (run.next (.call outcome)).Sound := by
  have busy : run.client.rpc.isBusy = true := by
    rw [NonblockingRpcClient.isBusy, calling]
  unfold next HotstuffProtocolClient.next HotstuffProtocolClient.call
  dsimp only
  split
  case isFalse null =>
    have null : run.client.rpc.connected = false := by simpa using null
    exact ⟨sound.inOrder, sound.holds.crash calling null⟩
  case isTrue =>
    refine ⟨sound.inOrder.call (sound.unfinished busy) outcome, ?_⟩
    cases outcome with
    | notDelivered => exact sound.holds.fail busy
    | answerLost => exact sound.holds.fail busy
    | answered =>
        dsimp only
        rw [Deliveries.due_answered]
        exact sound.holds.advance busy

theorem Sound.next (sound : run.Sound) {action : Action Msg}
    (allowed : run.client.Enabled action) : (run.next action).Sound := by
  have busy : ∀ {place}, run.client.rpc.place = place →
      NonblockingRpcClient.isBusy { run.client.rpc with place := place } =
        true → run.client.rpc.isBusy = true := by
    rintro place rfl
    exact id
  cases action with
  | submit msg =>
      refine ⟨sound.inOrder.submit msg, ?_⟩
      change (run.client.submit msg).Holds (run.history.submit msg).due
      rw [Deliveries.due_submit sound.inOrder]
      exact sound.holds.submit msg
  | wake =>
      obtain ⟨waiting, woken⟩ := allowed
      exact ⟨sound.inOrder, sound.holds.wake waiting woken⟩
  | start => exact ⟨sound.inOrder, sound.holds.start (busy allowed rfl)⟩
  | enter => exact ⟨sound.inOrder, sound.holds.enter (busy allowed rfl)⟩
  | tryOpen opens =>
      exact ⟨sound.inOrder, sound.holds.tryOpen allowed opens⟩
  | call outcome => exact sound.call allowed
  | stop => exact ⟨sound.inOrder, sound.holds.stop⟩

theorem submitted_next {action : Action Msg}
    (unsubmitted : ∀ msg, action ≠ .submit msg) :
    (run.next action).history.submitted = run.history.submitted := by
  cases action with
  | submit msg => exact (unsubmitted msg rfl).elim
  | call outcome =>
      unfold next
      dsimp only
      split
      · cases outcome <;> rfl
      · rfl
  | _ => rfl

/-- Only a call with a connection delivers, and it delivers the current
message. -/
theorem mem_delivered_next {action : Action Msg} {number : Nat}
    (arrived : number ∈ (run.next action).history.delivered) :
    number ∈ run.history.delivered ∨
      number = run.history.acknowledged ∧ ∃ outcome,
        action = .call outcome ∧ run.client.rpc.connected = true ∧
          outcome.reachesPeer = true := by
  cases action with
  | call outcome =>
      unfold next at arrived
      dsimp only at arrived
      split at arrived
      · rename_i connected
        cases outcome with
        | notDelivered => exact .inl arrived
        | answered | answerLost =>
            rcases List.mem_append.mp arrived with old | new
            · exact .inl old
            · exact .inr ⟨List.mem_singleton.mp new, _, rfl, connected, rfl⟩
      · exact .inl arrived
  | _ => exact .inl arrived

theorem sound_of_reachable (reached : (system Msg).Reachable run) :
    run.Sound := by
  refine reached.invariant Sound ?_ ?_
  · rintro start rfl
    exact ⟨Deliveries.inOrder_nil, HotstuffProtocolClient.holds_init⟩
  · intro state action _ sound allowed
    exact sound.next allowed

/-- A call has the first message that is not acknowledged. -/
theorem Sound.head?_todo (sound : run.Sound)
    (busy : run.client.rpc.isBusy = true) :
    run.client.todo.head? =
      run.history.submitted[run.history.acknowledged]? := by
  rw [← List.head?_drop]
  change _ = run.history.due.head?
  rw [sound.holds.remaining (.inr busy),
    List.head?_append_of_ne_nil _ (sound.holds.working busy)]

/-! #### Progress -/

/-- A step of the thread in which nothing fails. -/
def succeeds : Action Msg → Bool
  | .submit _ | .stop => false
  | .wake | .start | .enter => true
  | .tryOpen opens => opens
  | .call outcome => outcome == .answered

/-- The client was not stopped, so a call has a connection. -/
theorem Sound.answered (sound : run.Sound)
    (live : run.client.rpc.doneFlag = false)
    (calling : run.client.rpc.place = .calling) :
    (run.next (.call .answered)).client = run.client.advance := by
  have connected := sound.holds.rpc.connected calling live
  change run.client.call .answered = run.client.advance
  unfold HotstuffProtocolClient.call
  rw [if_pos connected]

theorem rank_next (sound : run.Sound)
    (live : run.client.rpc.doneFlag = false) {action : Action Msg}
    (allowed : run.client.Enabled action) (succeeds : succeeds action = true) :
    (run.next action).client.rank < run.client.rank := by
  cases action with
  | submit msg => cases succeeds
  | stop => cases succeeds
  | wake =>
      apply HotstuffProtocolClient.rank_wake live
      apply allowed.2.resolve_left
      rw [live]
      nofun
  | start => exact HotstuffProtocolClient.rank_start live allowed
  | enter => exact HotstuffProtocolClient.rank_enter allowed
  | tryOpen opens =>
      obtain rfl : opens = true := succeeds
      exact HotstuffProtocolClient.rank_tryOpen allowed
  | call outcome =>
      obtain rfl : outcome = .answered := eq_of_beq succeeds
      rw [sound.answered live allowed]
      exact HotstuffProtocolClient.rank_advance allowed

theorem doneFlag_next (live : run.client.rpc.doneFlag = false)
    {action : Action Msg} (running : action ≠ .stop) :
    (run.next action).client.rpc.doneFlag = false := by
  cases action with
  | stop => exact (running rfl).elim
  | submit msg => exact live
  | wake =>
      change run.client.wake.rpc.doneFlag = false
      unfold HotstuffProtocolClient.wake
      split <;> exact live
  | start =>
      change run.client.start.rpc.doneFlag = false
      unfold HotstuffProtocolClient.start
      split <;> exact live
  | enter =>
      change run.client.rpc.enter.doneFlag = false
      unfold NonblockingRpcClient.enter
      split <;> exact live
  | tryOpen opens =>
      change (run.client.rpc.tryOpen opens).doneFlag = false
      unfold NonblockingRpcClient.tryOpen
      split <;> exact live
  | call outcome =>
      have failed : run.client.fail.rpc.doneFlag = false := by
        unfold HotstuffProtocolClient.fail
        dsimp only
        split <;> exact live
      change (run.client.call outcome).rpc.doneFlag = false
      unfold HotstuffProtocolClient.call
      split
      · cases outcome with
        | answered =>
            dsimp only
            unfold HotstuffProtocolClient.advance
            split <;> exact live
        | answerLost => exact failed
        | notDelivered => exact failed
      · exact live

theorem ne_stop_of_succeeds {action : Action Msg}
    (success : succeeds action = true) : action ≠ .stop := by
  rintro rfl
  cases success

/-- The thread has a step as long as something is not acknowledged. -/
theorem Sound.exists_succeeds (sound : run.Sound)
    (live : run.client.rpc.doneFlag = false) (some : run.history.due ≠ []) :
    ∃ action : Action Msg, succeeds action = true ∧ run.client.Enabled action := by
  cases place : run.client.rpc.place with
  | waiting =>
      refine ⟨.wake, rfl, place, .inr ?_⟩
      intro empty
      apply some
      rw [sound.holds.remaining (.inl live), sound.holds.resting place, empty]
      rfl
  | starting => exact ⟨.start, rfl, place⟩
  | entering => exact ⟨.enter, rfl, place⟩
  | opening => exact ⟨.tryOpen true, rfl, place⟩
  | calling => exact ⟨.call .answered, rfl, place⟩
  | returned => cases live.symm.trans (sound.holds.rpc.returned place)
  | crashed => cases live.symm.trans (sound.holds.rpc.crashed place).1

theorem length_succeeds (reached : (system Msg).Reachable run)
    (live : run.client.rpc.doneFlag = false) {actions : List (Action Msg)}
    (allowed : (system Msg).EnabledAlong run actions)
    (succeed : ∀ action ∈ actions, succeeds action = true) :
    ((system Msg).run run actions).client.rpc.doneFlag = false ∧
      actions.length + ((system Msg).run run actions).client.rank ≤
        run.client.rank := by
  induction actions generalizing run with
  | nil => exact ⟨live, Nat.le_of_eq (Nat.zero_add _)⟩
  | cons action actions ih =>
      obtain ⟨first, rest⟩ := allowed
      have succeeds := succeed action (List.mem_cons_self ..)
      have lower :=
        rank_next (sound_of_reachable reached) live first succeeds
      obtain ⟨stillLive, bound⟩ := ih (reached.step first)
        (doneFlag_next live (ne_stop_of_succeeds succeeds)) rest
        (fun other member => succeed other (List.mem_cons_of_mem _ member))
      refine ⟨stillLive, ?_⟩
      change actions.length + 1 + ((system Msg).run (run.next action)
        actions).client.rank ≤ _
      change actions.length + ((system Msg).run (run.next action)
        actions).client.rank ≤ (run.next action).client.rank at bound
      omega

end ClientRun

/-- The peer gets the votes and proposals of a `HotstuffProtocolClient` in their
order, each one until it is acknowledged: a call has the first message that is
not.  Before it is stopped, the client keeps what is not acknowledged, and when
no call fails, it takes at most five steps for each message. -/
theorem protocol_client_delivers {Msg : Type*} {run : ClientRun Msg}
    (reached : (ClientRun.system Msg).Reachable run) :
    run.history.InOrder ∧
      (run.client.rpc.place = .calling → run.client.todo.head? =
        run.history.submitted[run.history.acknowledged]?) ∧
      (run.client.rpc.place = .crashed → run.client.rpc.doneFlag = true) ∧
      (run.client.rpc.doneFlag = false →
        run.history.due = run.client.todo ++ run.client.work ∧
        ∀ actions, (ClientRun.system Msg).EnabledAlong run actions →
          (∀ action ∈ actions, ClientRun.succeeds action = true) →
          actions.length ≤ 5 * run.history.due.length ∧
          (((ClientRun.system Msg).run run actions).history.due = [] ∨
            ∃ action : HotstuffProtocolClient.Action Msg,
              ClientRun.succeeds action = true ∧ ((ClientRun.system Msg).run
                run actions).client.Enabled action)) := by
  have sound := ClientRun.sound_of_reachable reached
  refine ⟨sound.inOrder, ?_, ?_, ?_⟩
  · intro calling
    apply sound.head?_todo
    rw [NonblockingRpcClient.isBusy, calling]
  · intro crashed
    exact (sound.holds.rpc.crashed crashed).1
  intro live
  refine ⟨sound.holds.remaining (.inl live), ?_⟩
  intro actions allowed succeed
  obtain ⟨stillLive, bound⟩ :=
    ClientRun.length_succeeds reached live allowed succeed
  constructor
  · exact Nat.le_trans (Nat.le_of_add_right_le bound)
      (sound.holds.rank_le live)
  · have later := ClientRun.sound_of_reachable (reached.run allowed)
    apply Classical.or_iff_not_imp_left.mpr
    exact later.exists_succeeds stillLive

/-- The answer to the first of two messages is lost, and it arrives twice. -/
theorem protocol_client_delivers_answerLost :
    ∃ run : ClientRun Bool, run.history.delivered = [0, 0, 1] ∧
      run.history.InOrder := by
  refine ⟨(ClientRun.system Bool).run .init
    [.submit true, .submit false, .wake, .start, .enter, .tryOpen true,
      .call .answerLost, .enter, .tryOpen true, .call .answered, .enter,
      .call .answered], rfl, (protocol_client_delivers ?_).1⟩
  refine .run (.initial rfl) ?_
  exact ⟨trivial, trivial, ⟨rfl, .inr nofun⟩, rfl, rfl, rfl, rfl, rfl, rfl, rfl,
    rfl, rfl, trivial⟩

end Hotstuff
