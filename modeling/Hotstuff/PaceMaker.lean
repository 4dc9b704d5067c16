import Hotstuff.ProposerLeaf
import Hotstuff.VoteCounting

/-!
# The pacemaker

`PaceMakerWaitQC` lets a proposer wait for the certificate on its last block.
The event thread reports certificates through a mailbox for one hash: a new
report replaces one that nobody has taken, and a cancelled wait leaves the
mailbox as it is.  The highest certificate moves before the report is made, so
the proposer can act in between.

A proposer that makes its next proposal only after a wait has returned with the
certificate it waited for always builds on the highest certified block: it is
one of the waiting proposers, whose leaf never falls back.
-/

namespace Hotstuff

section Pacing

variable [WireTypes] [Externals]

/-! ### The mailbox -/

/-- The members of `HotstuffAppBase` that `qc_wait_mtx` guards. -/
structure QcWait where
  latestNewQc : Option Hash
  cancelWait : Bool

namespace QcWait

def init : QcWait where
  latestNewQc := none
  cancelWait := false

def onNewQc (box : QcWait) (hash : Hash) : QcWait :=
  { box with latestNewQc := some hash }

/-- The result of the call and the mailbox after it; nothing while the call is
at its condition variable. -/
def waitForNewQc (box : QcWait) (expectedNextQc : Hash) :
    Option (Bool × QcWait) :=
  if box.cancelWait then some (false, { box with cancelWait := false })
  else box.latestNewQc.map fun latest =>
    (decide (latest = expectedNextQc), { box with latestNewQc := none })

def cancelWaitForNewQc (box : QcWait) : QcWait :=
  { box with cancelWait := true }

omit [Externals] in
/-- A call that returns was cancelled, or takes what was reported. -/
theorem waitForNewQc_cases {box after : QcWait} {expected : Hash} {res : Bool}
    (returns : box.waitForNewQc expected = some (res, after)) :
    (box.cancelWait = true ∧ res = false ∧
        after.latestNewQc = box.latestNewQc) ∨
      (box.cancelWait = false ∧ after.latestNewQc = none ∧
        ∃ latest, box.latestNewQc = some latest ∧
          res = decide (latest = expected)) := by
  unfold waitForNewQc at returns
  split at returns
  · rename_i cancelled
    cases returns
    exact .inl ⟨cancelled, rfl, rfl⟩
  · rename_i waits
    obtain ⟨latest, found, pair⟩ := Option.map_eq_some_iff.mp returns
    cases pair
    exact .inr ⟨Bool.eq_false_iff.mpr waits, rfl, latest, found, rfl⟩

end QcWait

/-! ### The threads of a paced replica -/

namespace HotstuffCore

def getLastProposer (core : HotstuffCore) : ReplicaID :=
  (core.block core.hqc.1).proposer

/-- The event thread processes votes and proposals; blocks are received and
collected by other threads. -/
def Event.onEventThread : Event → Bool
  | .vote _ _ _ => true
  | .selfVote _ => true
  | .proposal _ _ => true
  | _ => false

end HotstuffCore

/-- Where the thread of the pacemaker is. -/
inductive PaceMakerWaitQC.Place
  | idle
  /-- in `wait_for_new_qc` -/
  | waiting
  /-- the wait has failed, and the last proposer is asked for next -/
  | deferring
  deriving DecidableEq

structure PaceMakerWaitQC where
  expectedHash : Hash
  proposer : ReplicaID
  place : PaceMakerWaitQC.Place

/-- A replica with its pacemaker. -/
structure PacedReplica where
  core : HotstuffCore
  qcWait : QcWait
  /-- the certificate that the event thread is about to report -/
  reporting : Option Hash
  paceMaker : PaceMakerWaitQC
  /-- nothing was proposed yet, or a wait after the last proposal has returned
  with the expected certificate -/
  granted : Bool
  /-- the number of certificates reported when the mailbox was last emptied -/
  taken : Nat

namespace PacedReplica

inductive Action
  | event (event : HotstuffCore.Event)
  /-- `on_new_qc`, at the end of `on_receive_vote` -/
  | onNewQc
  | doPropose (body : Body)
  | doEmptyPropose (body : Body)
  | startWait
  /-- `wait_for_new_qc` returns -/
  | returnFromWait
  | getLastProposer
  | setSelfAsProposer
  | cancelWaitForNewQc

/-- The replica after `init_clean`, and the constructor of the pacemaker. -/
def init (selfId : ReplicaID) (config : ReplicaConfig) (secretKey : SecretKey) :
    PacedReplica :=
  let core := HotstuffCore.init selfId config secretKey
  { core := core
    qcWait := .init
    reporting := none
    paceMaker :=
      { expectedHash := zeroHash, proposer := core.getLastProposer
        place := .idle }
    granted := true
    taken := 0 }

def shouldPropose (replica : PacedReplica) : Bool :=
  replica.paceMaker.proposer == replica.core.selfId

/-- The event thread finishes a report before its next event; the pacemaker is
used by one thread. -/
def Enabled (replica : PacedReplica) : Action → Prop
  | .event event => replica.core.Enabled event ∧ event.isProposal = false ∧
      (event.onEventThread = true → replica.reporting = none)
  | .onNewQc => replica.reporting.isSome = true
  | .doPropose body => replica.core.Enabled (.doPropose body) ∧
      replica.paceMaker.place = .idle
  | .doEmptyPropose body => replica.core.Enabled (.doEmptyPropose body) ∧
      replica.paceMaker.place = .idle
  | .startWait => replica.paceMaker.place = .idle
  | .returnFromWait => replica.paceMaker.place = .waiting ∧
      (replica.qcWait.waitForNewQc replica.paceMaker.expectedHash).isSome = true
  | .getLastProposer => replica.paceMaker.place = .deferring
  | .setSelfAsProposer => replica.paceMaker.place = .idle
  | .cancelWaitForNewQc => True

instance decidableEnabled (replica : PacedReplica) :
    (action : Action) → Decidable (replica.Enabled action)
  | .event _ => inferInstanceAs (Decidable (_ ∧ _ ∧ (_ → _)))
  | .onNewQc => inferInstanceAs (Decidable (_ = true))
  | .doPropose _ => inferInstanceAs (Decidable (_ ∧ _))
  | .doEmptyPropose _ => inferInstanceAs (Decidable (_ ∧ _))
  | .startWait => inferInstanceAs (Decidable (_ = _))
  | .returnFromWait => inferInstanceAs (Decidable (_ ∧ _))
  | .getLastProposer => inferInstanceAs (Decidable (_ = _))
  | .setSelfAsProposer => inferInstanceAs (Decidable (_ = _))
  | .cancelWaitForNewQc => inferInstanceAs (Decidable True)

/-- Process an event of the core.  A call of `on_new_qc` is its last effect and
is left to be made. -/
def handle (replica : PacedReplica) (event : HotstuffCore.Event) :
    PacedReplica :=
  let core := replica.core.step event
  { replica with
    core := core
    reporting := if core.newQcs = replica.core.newQcs then replica.reporting
      else core.newQcs.head? }

/-- The hash of the new leaf is what the next wait is for. -/
def propose (replica : PacedReplica) (event : HotstuffCore.Event) :
    PacedReplica :=
  let core := replica.core.step event
  { replica with
    core := core
    paceMaker :=
      { replica.paceMaker with
        proposer := core.selfId
        expectedHash := (core.block core.bLeaf).getHash }
    granted := false }

/-- The certificates whose report has been made. -/
def delivered (replica : PacedReplica) : Nat :=
  replica.core.newQcs.length - replica.reporting.toList.length

/-- `wait_for_new_qc` has returned `result`. -/
def finishWait (replica : PacedReplica) (result : Bool × QcWait) :
    PacedReplica :=
  { replica with
    qcWait := result.2
    paceMaker :=
      { replica.paceMaker with
        place := if result.1 then .idle else .deferring }
    granted := replica.granted || result.1
    taken := if replica.qcWait.cancelWait then replica.taken
      else replica.delivered }

def next (replica : PacedReplica) : Action → PacedReplica
  | .event event => replica.handle event
  | .onNewQc =>
      { replica with
        qcWait := replica.reporting.elim replica.qcWait replica.qcWait.onNewQc
        reporting := none }
  | .doPropose body => replica.propose (.doPropose body)
  | .doEmptyPropose body => replica.propose (.doEmptyPropose body)
  | .startWait =>
      { replica with paceMaker := { replica.paceMaker with place := .waiting } }
  | .returnFromWait =>
      (replica.qcWait.waitForNewQc replica.paceMaker.expectedHash).elim replica
        replica.finishWait
  | .getLastProposer =>
      { replica with
        paceMaker :=
          { replica.paceMaker with
            proposer := replica.core.getLastProposer
            place := .idle } }
  | .setSelfAsProposer =>
      { replica with
        paceMaker :=
          { replica.paceMaker with proposer := replica.core.selfId } }
  | .cancelWaitForNewQc =>
      { replica with qcWait := replica.qcWait.cancelWaitForNewQc }

def system (selfId : ReplicaID) (config : ReplicaConfig)
    (secretKey : SecretKey) : TransitionSystem PacedReplica Action where
  initial := fun replica => replica = init selfId config secretKey
  enabled := Enabled
  next := next

instance decidableSystemEnabled (selfId : ReplicaID) (config : ReplicaConfig)
    (secretKey : SecretKey) (replica : PacedReplica) (action : Action) :
    Decidable ((system selfId config secretKey).enabled replica action) :=
  replica.decidableEnabled action

def Action.isPropose : Action → Bool
  | .doPropose _ => true
  | .doEmptyPropose _ => true
  | _ => false

/-- The first proposal is free; each later one is made after a wait that has
returned with the expected certificate. -/
def AwaitsCertificate (replica : PacedReplica) (action : Action) : Prop :=
  action.isPropose = true → replica.granted = true

instance decidableAwaitsCertificate (replica : PacedReplica) (action : Action) :
    Decidable (replica.AwaitsCertificate action) :=
  inferInstanceAs (Decidable (_ → _))

/-- A proposal is made whenever `should_propose` allows it. -/
def HeedsShouldPropose (replica : PacedReplica) (action : Action) : Prop :=
  action.isPropose = true → replica.shouldPropose = true

instance decidableHeedsShouldPropose (replica : PacedReplica)
    (action : Action) : Decidable (replica.HeedsShouldPropose action) :=
  inferInstanceAs (Decidable (_ → _))

end PacedReplica

/-! ### What the event thread reports -/

namespace HotstuffCore

omit [Externals] in
theorem newQcs_lockAndWrite (core : HotstuffCore) (blk1 : BlockPtr) :
    (core.lockAndWrite blk1).newQcs = core.newQcs := by
  rw [newQcs, lockAndWrite, List.filterMap_append]
  have silent (wires : List HotstuffBlockWire) :
      ((wires.map Effect.saveBlock).reverse).filterMap Effect.newQc = [] := by
    apply List.filterMap_eq_nil_iff.mpr
    intro effect member
    obtain ⟨wireBlock, -, rfl⟩ := List.mem_map.mp (List.mem_reverse.mp member)
    rfl
  rw [silent]
  rfl

theorem newQcs_commit (core : HotstuffCore) (commitQueue : List BlockPtr)
    (blk : BlockPtr) (qc : QuorumCertificate) :
    (core.commit commitQueue blk qc).newQcs = core.newQcs :=
  property_foldl_commitBlock newQcs (fun _ _ => rfl) core commitQueue.reverse

theorem newQcs_update (core : HotstuffCore) (nblk : BlockPtr) :
    (core.update nblk).newQcs = core.newQcs := by
  have locked (blk2 blk1 : BlockPtr) (qc : QuorumCertificate) :
      ((core.updateHqc blk2 qc).lockAndWrite blk1).newQcs = core.newQcs :=
    (newQcs_lockAndWrite _ _).trans (newQcs_updateHqc _ _ _)
  have outcome := update_result core nblk
  generalize core.update nblk = after at outcome ⊢
  cases outcome with
  | skip => rfl
  | certificate => exact newQcs_updateHqc _ _ _
  | lock => exact locked _ _ _
  | fail => exact locked _ _ _
  | commit => exact (newQcs_commit _ _ _ _).trans (locked _ _ _)

/-- A certificate is reported by the event thread, for a block that is not
above the highest certified one any more. -/
inductive Reports (core : HotstuffCore) (event : Event)
    (after : HotstuffCore) : Prop
  | nothing (same : after.newQcs = core.newQcs)
  | certificate (q : BlockPtr) (thread : event.onEventThread = true)
      (placed : core.store.Placed q)
      (reported : after.newQcs = core.store.hash q :: core.newQcs)
      (reached : core.store.height q ≤ after.store.height after.hqc.1)

theorem reports_onReceiveVote {core : HotstuffCore} {event : Event}
    (thread : event.onEventThread = true) {p : BlockPtr}
    (placed : core.store.Placed p) (cert : PartialCertificate)
    (voter : ReplicaID) :
    Reports core event (core.onReceiveVote cert p voter) := by
  rcases core.onReceiveVote_cases cert p voter with
    ⟨message, -, result⟩ | ⟨extended, added, ⟨-, -, result⟩ | result⟩
  · exact .nothing (by rw [result]; rfl)
  · have same := sameTree_withVote added
    refine .certificate p thread placed ?_ ?_
    · have reported := newQcs_updateHqc (core.withVote p extended) p extended
      rw [result, ← same.hash]
      exact congrArg (_ :: ·) reported
    · rw [result]
      change _ ≤ ((core.withVote p extended).updateHqc p extended).store.height
        ((core.withVote p extended).updateHqc p extended).hqc.1
      rw [updateHqc_store, same.height]
      rcases updateHqc_cases (core.withVote p extended) p extended with
        ⟨-, effects, -, raised⟩ | ⟨notHigher, kept⟩
      · rw [raised]
      · rw [kept, ← same.height, ← same.height]
        exact notHigher
  · exact .nothing (by rw [result]; rfl)

variable {collisionFree : CollisionFree}

theorem Valid.newQcs_proposeBody {core : HotstuffCore}
    (valid : core.Valid collisionFree) (nonemptyProposal : Bool)
    (body : Body) :
    (core.proposeBody nonemptyProposal body).newQcs = core.newQcs := by
  rw [valid.anchored.proposeBody_eq]
  rfl

theorem Valid.reports_step {core : HotstuffCore}
    (valid : core.Valid collisionFree) {event : Event}
    (enabled : core.Enabled event) :
    Reports core event (core.step event) := by
  cases event with
  | receiveBlock wireBlock source => exact .nothing rfl
  | insertBlock p => exact .nothing rfl
  | vote cert p voter =>
      have stored := valid.tree.stored_of_getBlock enabled.2.1
      exact reports_onReceiveVote rfl stored.2.1 cert voter
  | selfVote p =>
      have placed := valid.anchored.placed_of_votedToSelf enabled.2
      exact reports_onReceiveVote rfl placed _ core.selfId
  | proposal p proposer =>
      apply Reports.nothing
      rcases onReceiveProposal_cases valid.tree p proposer with
        ⟨-, result⟩ | ⟨-, result⟩ <;> rw [HotstuffCore.step, result]
      · exact newQcs_update _ p
      · exact newQcs_update core p
  | doPropose body => exact .nothing (valid.newQcs_proposeBody _ body)
  | doEmptyPropose body => exact .nothing (valid.newQcs_proposeBody _ body)
  | garbageCollect => exact .nothing rfl

/-- The hash is that of a block which is not above the highest certified
one. -/
def Reached (core : HotstuffCore) (hash : Hash) : Prop :=
  ∃ q, core.store.Placed q ∧ core.store.hash q = hash ∧
    core.store.height q ≤ core.store.height core.hqc.1

omit [Externals] in
theorem Reached.later {core after : HotstuffCore} {hash : Hash}
    (reached : core.Reached hash) (longer : core.store.Extends after.store)
    (rises : HqcRises core after) : after.Reached hash := by
  obtain ⟨q, placed, named, low⟩ := reached
  refine ⟨q, longer.placed placed, (longer.hash placed).trans named, ?_⟩
  rw [longer.height placed, longer.height rises.placed]
  exact low.trans rises.higher

/-- A block above the highest certified one has another hash. -/
theorem Valid.not_reached {core : HotstuffCore}
    (valid : core.Valid collisionFree) {p : BlockPtr}
    (placed : core.store.Placed p)
    (higher : core.store.height core.hqc.1 < core.store.height p) :
    ¬ core.Reached (core.store.hash p) := by
  rintro ⟨q, qPlaced, named, low⟩
  have sameHeight : core.store.height q = core.store.height p := by
    rw [← valid.tree.height_eq collisionFree qPlaced, named,
      valid.tree.height_eq collisionFree placed]
  omega

end HotstuffCore

/-! ### The invariant -/

namespace PacedReplica

/-- The last proposal has no certificate yet. -/
structure Outstanding (replica : PacedReplica) : Prop where
  ungranted : replica.granted = false
  awaited : replica.paceMaker.expectedHash =
    replica.core.store.hash replica.core.bLeaf
  higher : replica.core.store.height replica.core.hqc.1 <
    replica.core.store.height replica.core.bLeaf

/-- What is on its way to the pacemaker is certified, and the leaf is certified
or awaited. -/
structure Paced (replica : PacedReplica) : Prop where
  reporting : ∀ hash ∈ replica.reporting, replica.core.Reached hash
  mailbox : ∀ hash ∈ replica.qcWait.latestNewQc, replica.core.Reached hash
  leaf : replica.core.bLeaf = replica.core.hqc.1 ∨ replica.Outstanding
  counted : replica.reporting.toList.length ≤ replica.core.newQcs.length
  unread : replica.qcWait.latestNewQc = none →
    replica.taken = replica.delivered

variable {replica : PacedReplica} {collisionFree : CollisionFree}

omit [Externals] in
theorem Paced.settled (paced : replica.Paced)
    (granted : replica.granted = true) :
    replica.core.bLeaf = replica.core.hqc.1 := by
  rcases paced.leaf with settled | outstanding
  · exact settled
  · rw [outstanding.ungranted] at granted
    cases granted

/-- An event of another thread moves the leaf only to a certified block. -/
theorem Paced.leaf_handle (paced : replica.Paced)
    (valid : replica.core.Valid collisionFree) {event : HotstuffCore.Event}
    (enabled : replica.core.Enabled event)
    (notPropose : event.isProposal = false) :
    (replica.handle event).core.bLeaf = (replica.handle event).core.hqc.1 ∨
      (replica.handle event).Outstanding := by
  have longer := (HotstuffCore.grows_step valid.tree enabled).2
  have moves := HotstuffCore.leafMoves_step valid.tree event
  cases moves with
  | stays leaf hqc idle =>
      rcases paced.leaf with settled | outstanding
      · exact .inl (leaf.trans (settled.trans (congrArg Prod.fst hqc.symm)))
      · refine .inr ⟨outstanding.ungranted, ?_, ?_⟩
        · refine outstanding.awaited.trans ?_
          rw [PacedReplica.handle, leaf, longer.hash valid.leafPlaced]
        · rw [PacedReplica.handle, leaf, hqc, longer.height valid.leafPlaced,
            longer.height valid.hqcPlaced]
          exact outstanding.higher
  | certified placed higher leaf hqc idle =>
      exact .inl (leaf.trans hqc.symm)
  | mints nonemptyProposal body proposes result =>
      rcases proposes with rfl | rfl <;> cases notPropose

/-- An event neither proposes nor answers a wait. -/
theorem Paced.handle (paced : replica.Paced)
    (valid : replica.core.Valid collisionFree) {event : HotstuffCore.Event}
    (allowed : replica.Enabled (.event event)) :
    (replica.handle event).Paced := by
  obtain ⟨enabled, notPropose, unreported⟩ := allowed
  have longer := (HotstuffCore.grows_step valid.tree enabled).2
  have rises := (HotstuffCore.leafMoves_step valid.tree event).hqcRises
    valid.anchored
  have mailbox : ∀ hash ∈ replica.qcWait.latestNewQc,
      (replica.core.step event).Reached hash := fun hash member =>
    (paced.mailbox hash member).later longer rises
  have leaf := paced.leaf_handle valid enabled notPropose
  cases valid.reports_step enabled with
  | nothing same =>
      have kept : (replica.handle event).reporting = replica.reporting :=
        if_pos same
      refine ⟨?_, mailbox, leaf, ?_, ?_⟩
      · rw [kept]
        intro hash member
        exact (paced.reporting hash member).later longer rises
      · rw [kept]
        exact same ▸ paced.counted
      · rw [delivered, kept]
        exact same ▸ paced.unread
  | certificate q thread placed reported reached =>
      -- the event thread has made its last report before this event
      have noReport := unreported thread
      have changed : (replica.core.step event).newQcs ≠
          replica.core.newQcs := by
        rw [reported]
        exact List.cons_ne_self _ _
      have news : (replica.handle event).reporting =
          some (replica.core.store.hash q) := by
        rw [PacedReplica.handle, if_neg changed, reported]
        rfl
      refine ⟨?_, mailbox, leaf, ?_, ?_⟩
      · rw [news]
        rintro hash ⟨⟩
        refine ⟨q, longer.placed placed, longer.hash placed, ?_⟩
        rw [PacedReplica.handle, longer.height placed]
        exact reached
      · rw [news, PacedReplica.handle, reported]
        simp
      · rw [delivered, news, PacedReplica.handle, reported]
        intro empty
        rw [paced.unread empty, delivered, noReport]
        simp

/-- A granted proposal is made on the highest certified block, and awaited. -/
theorem Paced.propose (paced : replica.Paced)
    (valid : replica.core.Valid collisionFree)
    (granted : replica.granted = true)
    {event : HotstuffCore.Event} {nonemptyProposal : Bool} {body : Body}
    (proposes : replica.core.step event =
      replica.core.proposeBody nonemptyProposal body) :
    (replica.propose event).Paced := by
  have settled := paced.settled granted
  have newHeight := valid.height_minted body
  obtain ⟨-, longer, -⟩ := valid.anchored.mintedStore body
  have hqcHeight := longer.height valid.hqcPlaced
  rw [PacedReplica.propose, proposes, valid.anchored.proposeBody_eq]
  refine ⟨?_, ?_, .inr ⟨rfl, rfl, ?_⟩, paced.counted, paced.unread⟩
  · intro hash member
    exact (paced.reporting hash member).later longer
      ⟨valid.hqcPlaced, Nat.le_refl _⟩
  · intro hash member
    exact (paced.mailbox hash member).later longer
      ⟨valid.hqcPlaced, Nat.le_refl _⟩
  · rw [newHeight, settled]
    dsimp only
    omega

/-- The report reaches the mailbox. -/
theorem Paced.onNewQc (paced : replica.Paced)
    (pending : replica.reporting.isSome = true) :
    (replica.next .onNewQc).Paced := by
  obtain ⟨hash, reported⟩ := Option.isSome_iff_exists.mp pending
  have delivers : (replica.next .onNewQc).qcWait.latestNewQc = some hash := by
    rw [next, reported]
    rfl
  refine ⟨?_, ?_, paced.leaf.imp_right ?_, Nat.zero_le _, ?_⟩
  · intro other member
    cases member
  · rw [delivers]
    rintro other ⟨⟩
    exact paced.reporting hash reported
  · intro outstanding
    exact ⟨outstanding.ungranted, outstanding.awaited, outstanding.higher⟩
  · rw [delivers]
    intro empty
    cases empty

/-- A wait that returns with the expected certificate finds the leaf
certified. -/
theorem Paced.finishWait (paced : replica.Paced)
    (valid : replica.core.Valid collisionFree) {res : Bool} {box : QcWait}
    (returns : replica.qcWait.waitForNewQc replica.paceMaker.expectedHash =
      some (res, box)) : (replica.finishWait (res, box)).Paced := by
  rcases QcWait.waitForNewQc_cases returns with
    ⟨cancelled, rfl, same⟩ | ⟨waited, empty, latest, found, rfl⟩
  · refine ⟨paced.reporting, same ▸ paced.mailbox, paced.leaf.imp_right ?_,
      paced.counted, ?_⟩
    · intro outstanding
      refine ⟨?_, outstanding.awaited, outstanding.higher⟩
      rw [PacedReplica.finishWait, outstanding.ungranted, Bool.or_false]
    · rw [PacedReplica.finishWait, if_pos cancelled, same]
      exact paced.unread
  · refine ⟨paced.reporting, ?_, ?_, paced.counted, fun _ => ?_⟩
    · rw [PacedReplica.finishWait, empty]
      intro hash member
      cases member
    · rcases paced.leaf with settled | outstanding
      · exact .inl settled
      · -- an outstanding leaf is not among the certificates on their way
        have other : latest ≠ replica.paceMaker.expectedHash := by
          rintro rfl
          rw [outstanding.awaited] at found
          exact valid.not_reached valid.leafPlaced outstanding.higher
            (paced.mailbox _ found)
        refine .inr ⟨?_, outstanding.awaited, outstanding.higher⟩
        rw [PacedReplica.finishWait, outstanding.ungranted,
          decide_eq_false other]
        rfl
    · exact if_neg (Bool.eq_false_iff.mp waited)

omit [Externals] in
/-- The other actions leave the core and what is reported alone. -/
theorem Paced.moved (paced : replica.Paced) (proposer : ReplicaID)
    (place : PaceMakerWaitQC.Place) (cancelWait : Bool) :
    Paced { replica with
      qcWait := { replica.qcWait with cancelWait := cancelWait }
      paceMaker :=
        { replica.paceMaker with proposer := proposer, place := place } } where
  reporting := paced.reporting
  mailbox := paced.mailbox
  leaf := paced.leaf.imp_right fun outstanding =>
    ⟨outstanding.ungranted, outstanding.awaited, outstanding.higher⟩
  counted := paced.counted
  unread := paced.unread

theorem Paced.next (paced : replica.Paced)
    (valid : replica.core.Valid collisionFree) {action : Action}
    (enabled : replica.Enabled action)
    (awaits : replica.AwaitsCertificate action) :
    (replica.next action).Paced := by
  cases action with
  | event event => exact paced.handle valid enabled
  | onNewQc => exact paced.onNewQc enabled
  | doPropose body => exact paced.propose valid (awaits rfl) rfl
  | doEmptyPropose body => exact paced.propose valid (awaits rfl) rfl
  | startWait => exact paced.moved _ _ _
  | returnFromWait =>
      obtain ⟨⟨res, box⟩, returns⟩ := Option.isSome_iff_exists.mp enabled.2
      rw [PacedReplica.next, returns]
      exact paced.finishWait valid returns
  | getLastProposer => exact paced.moved _ _ _
  | setSelfAsProposer => exact paced.moved _ _ _
  | cancelWaitForNewQc => exact paced.moved _ _ _

/-! ### Runs -/

variable {selfId : ReplicaID} {config : ReplicaConfig} {secretKey : SecretKey}

/-- Each action takes the core one step of a waiting proposer, or leaves it. -/
theorem Paced.core_next (paced : replica.Paced) {action : Action}
    (enabled : replica.Enabled action)
    (awaits : replica.AwaitsCertificate action) :
    (replica.next action).core = replica.core ∨
      ∃ event, replica.core.Enabled event ∧ replica.core.WaitsForQc event ∧
        (replica.next action).core = replica.core.step event := by
  cases action with
  | event event =>
      refine .inr ⟨event, enabled.1, ?_, rfl⟩
      have notPropose := enabled.2.1
      cases event <;> trivial
  | doPropose body =>
      exact .inr ⟨_, enabled.1, paced.settled (awaits rfl), rfl⟩
  | doEmptyPropose body =>
      exact .inr ⟨_, enabled.1, paced.settled (awaits rfl), rfl⟩
  | returnFromWait =>
      obtain ⟨result, returns⟩ := Option.isSome_iff_exists.mp enabled.2
      rw [PacedReplica.next, returns]
      exact .inl rfl
  | onNewQc => exact .inl rfl
  | startWait => exact .inl rfl
  | getLastProposer => exact .inl rfl
  | setSelfAsProposer => exact .inl rfl
  | cancelWaitForNewQc => exact .inl rfl

theorem Paced.init : (init selfId config secretKey).Paced where
  reporting := by
    intro hash member
    cases member
  mailbox := by
    intro hash member
    cases member
  leaf := .inl rfl
  counted := Nat.le_refl _
  unread := fun _ => rfl

end PacedReplica

end Pacing

open scoped Symbolic

/-- Replica `0` proposes, collects the votes on its block, and proposes again
when the wait has returned. -/
def Symbolic.pacedTwice : List PacedReplica.Action :=
  let first : Hash := hashHeader
    (HotstuffBlock.mintBlock [7] HotstuffBlock.genesisBlock.selfQc.serialize
      zeroHash 0).wireBlock.header
  [.setSelfAsProposer, .doPropose [7], .startWait, .event (.proposal 1 0),
    .event (.selfVote 1), .event (.vote (voteOf 1 first) 1 1),
    .event (.vote (voteOf 2 first) 1 2), .onNewQc, .returnFromWait,
    .doPropose [8], .startWait]

/-- The second wait is cancelled.  The highest certified block is an own one, so
the replica goes on: it proposes on its second block, gets the certificate on
that block, which is not the expected one, and proposes on it again. -/
def Symbolic.pacedCancelled : List PacedReplica.Action :=
  let core := ((PacedReplica.system 0 Symbolic.fourReplicas (0 : Nat)).run
    (.init 0 Symbolic.fourReplicas (0 : Nat)) Symbolic.pacedTwice).core
  let second := core.store.hash 2
  Symbolic.pacedTwice ++
  [.cancelWaitForNewQc, .returnFromWait, .getLastProposer, .doPropose [9],
    .event (.proposal 2 0), .event (.selfVote 2),
    .event (.vote (voteOf 1 second) 2 1), .event (.vote (voteOf 2 second) 2 2),
    .onNewQc, .startWait, .returnFromWait, .getLastProposer, .doPropose [10]]

/-- A proposer that only heeds `should_propose` may repeat a height. -/
theorem shouldPropose_repeats_height :
    let system := (PacedReplica.system 0 Symbolic.fourReplicas
      (0 : Nat)).restrict PacedReplica.HeedsShouldPropose
    let start := PacedReplica.init 0 Symbolic.fourReplicas (0 : Nat)
    let last := (system.run start Symbolic.pacedCancelled).core
    system.EnabledAlong start Symbolic.pacedCancelled ∧
      last.mintedBlocks = [4, 3, 2, 1] ∧
      last.store.height 3 = 3 ∧ last.store.height 4 = 3 ∧
      last.store.hash 3 ≠ last.store.hash 4 := by
  decide +kernel

end Hotstuff
