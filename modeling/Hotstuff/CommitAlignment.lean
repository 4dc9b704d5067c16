import Hotstuff.HotstuffApp

/-!
# Commit notifications and the speculation map

`apply_block` compares the id of a decided block with that of the lowest
speculative entry, without looking at the height of the entry.  The comparison
makes sense because the lowest entry always has the height after the highest
committed one, and the event thread commits one height after the other.  Both
start together: after `init_clean` at zero, after `init_from_disk` at the height
of the last block of the decided index.
-/

namespace Hotstuff

section Alignment

variable [WireTypes] [Externals] {collisionFree : CollisionFree}

/-! ### The decided index -/

/-- The decided index ends with the given block, and so does the certificate. -/
structure Disk.EndsAt (collisionFree : CollisionFree) (disk : Disk)
    (hash : Hash) : Prop where
  keys : ∀ entry ∈ disk.decidedHashIndex.entries,
    entry.1 ≤ (headerForest collisionFree).height hash
  last : (disk.decidedHashIndex.entries.map Prod.snd).getLastD zeroHash = hash
  certified : ∀ qc, disk.qcOnTopBlock = some qc → qc.justify = hash

namespace Disk

theorem endsAt_empty : empty.EndsAt collisionFree zeroHash where
  keys := nofun
  last := rfl
  certified := nofun

/-- Saving blocks does not touch the index. -/
theorem EndsAt.saves {disk : Disk} {hash : Hash}
    (ends : disk.EndsAt collisionFree hash) {effects : List Effect}
    (noTxn : ∀ effect ∈ effects, effect.isTxn = false) :
    (effects.foldl .write disk).EndsAt collisionFree hash := by
  induction effects generalizing disk with
  | nil => exact ends
  | cons effect effects ih =>
      apply ih _ fun other member => noTxn other (List.mem_cons_of_mem _ member)
      have silent := noTxn effect List.mem_cons_self
      cases effect with
      | commitTxn => cases silent
      | _ => exact ⟨ends.keys, ends.last, ends.certified⟩

/-- A transaction that adds the following heights. -/
theorem EndsAt.commitTxn {disk : Disk} {hash top : Hash}
    (ends : disk.EndsAt collisionFree hash) {rows : List (Nat × Hash)}
    {qc : QuorumCertificateWire}
    (keys : rows.map Prod.fst =
      List.range' ((headerForest collisionFree).height hash + 1) rows.length)
    (height : (headerForest collisionFree).height top =
      (headerForest collisionFree).height hash + rows.length)
    (last : (rows.map Prod.snd).getLastD hash = top)
    (certifies : qc.justify = top) :
    (disk.write (.commitTxn rows qc)).EndsAt collisionFree top := by
  have above : ∀ entry ∈ rows,
      (headerForest collisionFree).height hash < entry.1 ∧
        entry.1 ≤ (headerForest collisionFree).height top := by
    intro entry member
    have inside := List.mem_map_of_mem (f := Prod.fst) member
    rw [keys, List.mem_range'_1] at inside
    omega
  have entries : (disk.write (.commitTxn rows qc)).decidedHashIndex.entries =
      disk.decidedHashIndex.entries ++ rows := by
    apply OrderedMap.entries_foldl_put
    rw [List.pairwise_append]
    refine ⟨disk.decidedHashIndex.sorted, ?_, ?_⟩
    · rw [← List.pairwise_map (f := Prod.fst) (R := (· < ·)), keys]
      exact List.pairwise_lt_range'
    · intro old oldMember new newMember
      exact Nat.lt_of_le_of_lt (ends.keys old oldMember) (above new newMember).1
  constructor
  · rw [entries]
    intro entry member
    rcases List.mem_append.mp member with old | new
    · exact (ends.keys entry old).trans (by omega)
    · exact (above entry new).2
  · have hashes := ends.last
    rw [List.getLastD_eq_getLast?] at hashes last ⊢
    rw [entries, List.map_append, List.getLast?_append, Option.getD_or, hashes,
      last]
  · intro other present
    cases present
    exact certifies

/-- One round of `reload_decided_blocks`. -/
theorem reloadBlock_ok {disk : Disk} {loaded after : BlockStore × Nat}
    {hash : Hash} (tree : loaded.1.WellFormed)
    (ok : disk.reloadBlock loaded hash = .ok after) :
    after.1.WellFormed ∧
      after.2 = (headerForest collisionFree).height hash := by
  unfold reloadBlock loadDecidedBlock at ok
  cases found : disk.loadBlock hash with
  | none =>
      rw [found] at ok
      cases ok
  | some wireBlock =>
      rw [found] at ok
      have named : hashHeader wireBlock.header = hash := by
        simpa using List.find?_some found
      change (if ((loaded.1.alloc (.ofDisk wireBlock)).1.insertBlock
        loaded.1.heap.length).2.any then _ else _) = _ at ok
      split at ok
      · cases ok
      · rename_i complete
        cases ok
        have fresh : (HotstuffBlock.ofDisk wireBlock).links =
            (HotstuffBlock.new wireBlock unknownReplica).links := rfl
        have appended := tree.appended_of_complete fresh
          (Bool.eq_false_of_not_eq_true complete)
        obtain ⟨above, edge, -⟩ := appended.parent
        refine ⟨appended.tree, ?_⟩
        rw [← named, ← appended.hash]
        refine (appended.tree.height_eq collisionFree (.inr ?_)).symm
        exact Option.isSome_of_eq_some edge

theorem foldlM_reloadBlock_ok {disk : Disk} {hashes : List Hash}
    {loaded after : BlockStore × Nat} {top : Hash}
    (tree : loaded.1.WellFormed)
    (height : loaded.2 = (headerForest collisionFree).height top)
    (ok : hashes.foldlM disk.reloadBlock loaded = .ok after) :
    after.1.WellFormed ∧
      after.2 = (headerForest collisionFree).height (hashes.getLastD top) := by
  induction hashes generalizing loaded top with
  | nil =>
      cases ok
      exact ⟨tree, height⟩
  | cons hash hashes ih =>
      rw [List.foldlM_cons] at ok
      cases first : disk.reloadBlock loaded hash with
      | error message =>
          rw [first] at ok
          cases ok
      | ok middle =>
          rw [first] at ok
          obtain ⟨tree', height'⟩ := reloadBlock_ok tree first
          rw [List.getLastD_cons]
          exact ih tree' height' ok

end Disk

/-- What `reload_decided_blocks` does when it succeeds. -/
theorem reloadDecidedBlocks_ok {selfId : ReplicaID} {config : ReplicaConfig}
    {secretKey : SecretKey} {disk : Disk} {core : HotstuffCore}
    {highestDecisionHeight : Nat}
    (ok : (HotstuffCore.init selfId config secretKey).reloadDecidedBlocks disk =
      .ok (core, highestDecisionHeight)) :
    ∃ store qc p, (disk.decidedHashIndex.entries.map Prod.snd).foldlM
        disk.reloadBlock (.init, 0) = .ok (store, highestDecisionHeight) ∧
      disk.qcOnTopBlock = some qc ∧ store.getBlock qc.justify = some p ∧
      core = { { HotstuffCore.init selfId config secretKey with
          store := store }.updateHqc p (.ofWire qc) with
        vheight := store.height p % 2 ^ 32
        bExec := p
        bLock := p } := by
  unfold HotstuffCore.reloadDecidedBlocks at ok
  rw [show (HotstuffCore.init selfId config secretKey).store = .init from rfl]
    at ok
  cases blocks : (disk.decidedHashIndex.entries.map Prod.snd).foldlM
      disk.reloadBlock (BlockStore.init, 0) with
  | error message =>
      rw [blocks] at ok
      cases ok
  | ok loaded =>
      rw [blocks] at ok
      change HotstuffCore.reloadStateFromIndex
        { HotstuffCore.init selfId config secretKey with store := loaded.1 }
          disk >>= _ = _ at ok
      rw [HotstuffCore.reloadStateFromIndex, Disk.getHighestQc] at ok
      cases top : disk.qcOnTopBlock with
      | none =>
          rw [top] at ok
          cases ok
      | some qc =>
          rw [top] at ok
          change (HotstuffCore.findBlockByHash _
            (QuorumCertificate.ofWire qc).objHash >>= _) >>= _ = _ at ok
          rw [QuorumCertificate.objHash_ofWire,
            HotstuffCore.findBlockByHash] at ok
          cases found : loaded.1.getBlock qc.justify with
          | none =>
              simp only [found] at ok
              cases ok
          | some p =>
              simp only [found] at ok
              cases ok
              exact ⟨loaded.1, qc, p, rfl, rfl, found, rfl⟩

/-- After `reload_decided_blocks` the last executed block is the last one of the
index, and the height returned is its height. -/
theorem reloadDecidedBlocks_endsAt {selfId : ReplicaID}
    {config : ReplicaConfig} {secretKey : SecretKey} {disk : Disk} {hash : Hash}
    {core : HotstuffCore} {highestDecisionHeight : Nat}
    (ends : disk.EndsAt collisionFree hash)
    (ok : (HotstuffCore.init selfId config secretKey).reloadDecidedBlocks disk =
      .ok (core, highestDecisionHeight)) :
    core.store.WellFormed ∧ core.store.Placed core.bExec ∧
      core.store.hash core.bExec = hash ∧
      highestDecisionHeight = core.store.height core.bExec := by
  obtain ⟨store, qc, p, blocks, top, found, rfl⟩ := reloadDecidedBlocks_ok ok
  have genesis : 0 = (headerForest collisionFree).height zeroHash :=
    (headerForest collisionFree).height_root.symm
  obtain ⟨tree, height⟩ := Disk.foldlM_reloadBlock_ok
    BlockStore.wellFormed_init genesis blocks
  rw [ends.last] at height
  obtain ⟨-, placed, named⟩ := tree.stored_of_getBlock found
  rw [ends.certified qc top] at named
  simp only [HotstuffCore.updateHqc_store]
  refine ⟨tree, placed, named, ?_⟩
  rw [← tree.height_eq collisionFree placed, named]
  exact height

/-! ### The application -/

namespace HotstuffApp

variable [VMBase] {kind : MutexKind} {app : HotstuffApp}

/-- The blocks that were passed to the bridge and those still in the queue lead
up to the last executed block. -/
structure Aligned (collisionFree : CollisionFree) (app : HotstuffApp) :
    Prop where
  tree : app.core.store.WellFormed
  execPlaced : app.core.store.Placed app.core.bExec
  inOrder : app.bridge.InOrder
  last : app.lastCommitted =
    app.bridge.speculationMap.highestCommittedHeight
  queue : app.commitQueue.map (·.blockHeight) =
    List.range' (app.bridge.handled + 1) app.commitQueue.length
  reached : app.bridge.handled + app.commitQueue.length =
    app.core.store.height app.core.bExec
  logged : (app.txns.foldl .write app.disk).EndsAt collisionFree
    (app.core.store.hash app.core.bExec)
  durable : ∃ hash, app.disk.EndsAt collisionFree hash

theorem aligned_initClean (selfId : ReplicaID) (config : ReplicaConfig)
    (secretKey : SecretKey) (configs : HotstuffConfigs) :
    (initClean selfId config secretKey configs).Aligned collisionFree where
  tree := BlockStore.wellFormed_init
  execPlaced := .inl rfl
  inOrder := HotstuffVMBridge.inOrder_init configs
  last := rfl
  queue := rfl
  reached := rfl
  logged := Disk.endsAt_empty
  durable := ⟨zeroHash, Disk.endsAt_empty⟩

theorem Aligned.restart (aligned : app.Aligned collisionFree) {vm : VMState}
    {restarted : HotstuffApp} (ok : app.restart vm = .ok restarted) :
    restarted.Aligned collisionFree := by
  obtain ⟨hash, ends⟩ := aligned.durable
  unfold HotstuffApp.restart initFromDisk at ok
  cases reload : (HotstuffCore.init app.core.selfId app.core.config
      app.core.secretKey).reloadDecidedBlocks app.disk with
  | error message =>
      rw [reload] at ok
      cases ok
  | ok result =>
      rw [reload] at ok
      cases ok
      obtain ⟨tree, placed, named, height⟩ :=
        reloadDecidedBlocks_endsAt ends reload
      refine ⟨tree, placed, ⟨⟨?_, ?_, ?_, rfl⟩, ?_, nofun, trivial⟩, rfl, rfl,
        height, named ▸ ends, hash, ends⟩
      · exact ⟨rfl, fun _ => rfl⟩
      · intro requested
        exact absurd requested (Nat.lt_irrefl 0)
      · intro height waiting
        cases waiting
      · exact SpeculativeExecGadget.contiguous_clear _

/-- A commit leaves its queue and its transaction to the following steps. -/
theorem Aligned.handle (aligned : app.Aligned collisionFree)
    {event : HotstuffCore.Event} (enabled : app.core.Enabled event)
    (noQueue : app.commitQueue = []) (noTxns : app.txns = []) :
    (app.handle event).Aligned collisionFree := by
  obtain ⟨blocks, txns, executes⟩ :=
    HotstuffCore.executes_step aligned.tree aligned.execPlaced enabled
  obtain ⟨effects, traceEq, applied, logged⟩ := executes.effects
  have tree := (HotstuffCore.grows_step aligned.tree enabled).1
  have reached := aligned.reached
  have disk := aligned.logged
  rw [noQueue] at reached
  rw [noTxns] at disk
  have height := aligned.tree.height_eq collisionFree aligned.execPlaced
  have height' := tree.height_eq collisionFree executes.execPlaced
  -- the files are saved before the first block is applied
  have saved : ((effects.reverse.filter (!·.isTxn)).foldl .write
      app.disk).EndsAt collisionFree (app.core.store.hash app.core.bExec) := by
    apply disk.saves
    intro effect member
    simpa using (List.mem_filter.mp member).2
  have result : app.handle event =
      { app with
        core := app.core.step event
        disk := (effects.reverse.filter (!·.isTxn)).foldl .write app.disk
        commitQueue := blocks
        txns := txns } := by
    rw [HotstuffApp.handle, HotstuffCore.newEffects_append traceEq, applied,
      logged]
  rw [result]
  refine ⟨tree, executes.execPlaced, aligned.inOrder, aligned.last, ?_, ?_, ?_,
    _, saved⟩
  · have handled : app.bridge.handled =
        app.core.store.height app.core.bExec := reached
    rw [handled]
    exact executes.heights
  · rw [executes.execHeight, ← reached]
    rfl
  · cases executes.logs with
    | nothing none bExec =>
        have longer := (HotstuffCore.grows_step aligned.tree enabled).2
        rw [none, bExec, longer.hash aligned.execPlaced]
        exact saved
    | rows single keys execHeight last certifies =>
        rw [single]
        rw [← height] at keys execHeight
        exact saved.commitTxn keys (height'.trans execHeight) last certifies

theorem Aligned.applyBlock (aligned : app.Aligned collisionFree)
    (allowed : app.Enabled kind .applyBlock) :
    (app.next .applyBlock).Aligned collisionFree := by
  obtain ⟨nonempty, idle, canLock⟩ := allowed
  obtain ⟨block, rest, queued⟩ := List.exists_cons_of_ne_nil nonempty
  have queue := aligned.queue
  have reached := aligned.reached
  rw [queued] at queue reached
  rw [List.map_cons, List.length_cons, List.range'_succ] at queue
  obtain ⟨first, others⟩ := List.cons.inj queue
  have committed : app.bridge.handled =
      app.bridge.speculationMap.highestCommittedHeight := by
    rw [HotstuffVMBridge.handled, EventThread.eq_idle idle]
    rfl
  have enabled : app.bridge.Enabled kind
      (.applyBlock block.blockHeight block.wireBlock.body) := ⟨idle, canLock⟩
  obtain ⟨inOrder, handled⟩ :=
    aligned.inOrder.applyBlock enabled (committed ▸ first)
  simp only [next, queued]
  refine ⟨aligned.tree, aligned.execPlaced, inOrder, aligned.last, ?_, ?_,
    aligned.logged, aligned.durable⟩
  · rw [handled]
    exact others
  · rw [handled, ← reached, List.length_cons]
    exact (Nat.add_right_comm _ _ _).trans (Nat.add_assoc _ _ _)

/-- A step of the bridge other than the start of `apply_block`. -/
theorem Aligned.bridge (aligned : app.Aligned collisionFree)
    {action : HotstuffVMBridge.Action}
    (allowed : app.bridge.Enabled kind action)
    (otherCall : ∀ height body, action ≠ .applyBlock height body)
    {bridge : HotstuffVMBridge} (result : app.bridge.next action = bridge)
    {proposing : Option Bool} {lastCommitted : Nat}
    (last : lastCommitted =
      (app.bridge.committing action).getD app.lastCommitted) :
    { app with
      bridge := bridge
      proposing := proposing
      lastCommitted := lastCommitted }.Aligned collisionFree := by
  obtain ⟨inOrder, handled, committed⟩ :=
    aligned.inOrder.next allowed otherCall
  rw [result] at inOrder handled committed
  refine ⟨aligned.tree, aligned.execPlaced, inOrder, ?_, ?_, ?_,
    aligned.logged, aligned.durable⟩
  · rw [last, aligned.last]
    exact committed.symm
  · rw [handled]
    exact aligned.queue
  · rw [handled]
    exact aligned.reached

theorem Aligned.startProposal (aligned : app.Aligned collisionFree)
    (allowed : app.CanPropose kind) (nonemptyProposal : Bool) :
    (app.startProposal nonemptyProposal).Aligned collisionFree := by
  obtain ⟨-, -, idle, canLock⟩ := allowed
  cases nonemptyProposal with
  | false =>
      have enabled : app.bridge.Enabled kind
          (.makeEmptyProposal app.newBlockHeight) := ⟨idle, canLock⟩
      exact aligned.bridge enabled nofun rfl rfl
  | true =>
      have enabled : app.bridge.Enabled kind
          (.getAndApplyNextProposal app.newBlockHeight) := ⟨idle, canLock⟩
      exact aligned.bridge enabled nofun rfl rfl

theorem Aligned.finishProposal (aligned : app.Aligned collisionFree)
    (allowed : app.Enabled kind .finishProposal) :
    (app.next .finishProposal).Aligned collisionFree := by
  have enabled : app.bridge.Enabled kind .proposer := by
    have answered := allowed.2
    unfold answer at answered
    split at answered
    · rename_i place
      rw [HotstuffVMBridge.Enabled, place]
      trivial
    · cases answered
  have stepped : { app with
      bridge := app.bridge.proposerStep
      proposing := none }.Aligned collisionFree := by
    apply aligned.bridge enabled
    · intro height body isCall
      cases isCall
    · rfl
    · rfl
  obtain ⟨tree, longer⟩ :=
    HotstuffCore.grows_mintedStore aligned.tree (app.answer.getD [])
  rw [← HotstuffCore.store_proposeBody app.core (app.proposing.getD false)]
    at tree longer
  have bExec := (app.core.calm_proposeBody (app.proposing.getD false)
    (app.answer.getD [])).2
  refine ⟨tree, ?_, stepped.inOrder, stepped.last, stepped.queue, ?_, ?_,
    stepped.durable⟩
  · rw [next, bExec]
    exact longer.placed aligned.execPlaced
  · rw [next, bExec, longer.height aligned.execPlaced]
    exact stepped.reached
  · rw [next, bExec, longer.hash aligned.execPlaced]
    exact aligned.logged

theorem Aligned.next (aligned : app.Aligned collisionFree) {action : Action}
    (allowed : app.Enabled kind action) :
    (app.next action).Aligned collisionFree := by
  cases action with
  | event event =>
      obtain ⟨enabled, -, noQueue, noTxns, -⟩ := allowed
      exact aligned.handle enabled noQueue noTxns
  | applyBlock => exact aligned.applyBlock allowed
  | commitTxn =>
      exact ⟨aligned.tree, aligned.execPlaced, aligned.inOrder, aligned.last,
        aligned.queue, aligned.reached, aligned.logged, _, aligned.logged⟩
  | doPropose => exact aligned.startProposal allowed _
  | doEmptyPropose => exact aligned.startProposal allowed _
  | finishProposal => exact aligned.finishProposal allowed
  | bridge action =>
      obtain ⟨inside, enabled, -⟩ := allowed
      refine aligned.bridge enabled ?_ rfl rfl
      rintro height body rfl
      cases inside
  | restart vm =>
      cases result : app.restart vm with
      | error message =>
          have ok : (app.restart vm).isOk = true := allowed
          rw [result] at ok
          cases ok
      | ok restarted =>
          simp only [HotstuffApp.next, result]
          exact aligned.restart result

/-- Commits and the speculation map are aligned: where no block is being
committed the two agree on the height of the last committed block, and the queue
goes on from there; the entry with which a block is compared has its height; and
no commit fails. -/
structure CommitsAligned (app : HotstuffApp) : Prop where
  between : app.bridge.eventThread = .idle →
    app.bridge.speculationMap.highestCommittedHeight = app.lastCommitted ∧
      (∀ block ∈ app.commitQueue.head?,
        block.blockHeight = app.lastCommitted + 1) ∧
      (app.commitQueue = [] →
        app.lastCommitted = app.core.store.height app.core.bExec)
  compares : ∀ height value lowest,
    app.bridge.eventThread = .compare height value →
    app.bridge.speculationMap.heightMap.head? = some lowest →
    lowest.1 = height
  neverFails : ∀ message, app.bridge.eventThread ≠ .failed message

theorem Aligned.commitsAligned (aligned : app.Aligned collisionFree) :
    app.CommitsAligned where
  between := by
    intro idle
    have handled : app.bridge.handled = app.lastCommitted := by
      rw [HotstuffVMBridge.handled, idle, aligned.last]
      rfl
    have queue := aligned.queue
    have reached := aligned.reached
    rw [handled] at queue reached
    refine ⟨aligned.last.symm, ?_, ?_⟩
    · intro block first
      cases queued : app.commitQueue with
      | nil =>
          rw [queued] at first
          cases first
      | cons head rest =>
          rw [queued] at first queue
          cases first
          exact (List.cons.inj queue).1
    · intro empty
      rw [empty] at reached
      exact reached
  compares := by
    intro height value lowest place first
    obtain ⟨higher, recorded⟩ := List.head?_eq_some_iff.mp first
    exact aligned.inOrder.lowest (by rw [place]; rfl) recorded
  neverFails := by
    intro message failed
    have fits := aligned.inOrder.fits
    rw [failed] at fits
    exact fits

end HotstuffApp

/-- In every run of the application, with any stops and restarts from disk,
commits and the speculation map are aligned. -/
theorem commits_match_speculation [VMBase] (collisionFree : CollisionFree)
    {kind : MutexKind} {selfId : ReplicaID} {config : ReplicaConfig}
    {secretKey : SecretKey} {configs : HotstuffConfigs} {app : HotstuffApp}
    (reachable : (appSystem kind selfId config secretKey configs).Reachable
      app) : app.CommitsAligned := by
  have aligned : app.Aligned collisionFree := by
    refine reachable.invariant (HotstuffApp.Aligned collisionFree) ?_ ?_
    · rintro start rfl
      exact HotstuffApp.aligned_initClean selfId config secretKey configs
    · intro app action _ aligned allowed
      exact aligned.next allowed
  exact aligned.commitsAligned

end Alignment

/-! ### A replica that commits over its own proposal, stops and restarts -/

namespace Symbolic.Restart

open scoped Symbolic
open Fork HotstuffApp

def system : TransitionSystem HotstuffApp Action :=
  appSystem .recursive 0 fourReplicas (0 : Nat) defaultConfigs

instance decidableEnabled (app : HotstuffApp) (action : Action) :
    Decidable (system.enabled app action) :=
  inferInstanceAs (Decidable (app.Enabled .recursive action))

/-- The replica proposes an empty block, processes the chain of another one, and
passes its first block to the bridge. -/
def beforeCompare : List Action :=
  [.doEmptyPropose, .finishProposal] ++
    (([b1, b2, b3, b4].zipIdx 2).flatMap fun (wireBlock, p) =>
      [.event (.receiveBlock wireBlock 3), .event (.insertBlock p),
        .event (.proposal p 3)]) ++
    [.applyBlock]

/-- The block commits, and the process stops and starts again. -/
def commitAndRestart : List Action :=
  beforeCompare ++ List.replicate 4 (.bridge .events) ++
    [.commitTxn, .restart (VMBase.initClean : VMState)]

def start : HotstuffApp :=
  .initClean 0 fourReplicas (0 : Nat) defaultConfigs

end Symbolic.Restart

open scoped Symbolic in
open Symbolic Symbolic.Restart in
/-- The entry of the replica's own proposal at height one is compared with the
decided block of height one; after the restart the height is still one. -/
theorem commits_match_own_proposal :
    (∃ app value, system.Reachable app ∧
      app.bridge.eventThread = .compare 1 value ∧
      app.bridge.speculationMap.heightMap = [(1, none)] ∧
      app.CommitsAligned) ∧
    ∃ app, system.Reachable app ∧ app.lastCommitted = 1 ∧
      app.CommitsAligned := by
  have atCompare : system.Reachable (system.run start beforeCompare) := by
    refine .run (.initial rfl) ?_
    decide +kernel
  have restarted : system.Reachable (system.run start commitAndRestart) := by
    refine .run (.initial rfl) ?_
    decide +kernel
  refine ⟨⟨_, none, atCompare, ?_, by decide +kernel,
    commits_match_speculation collisionFree atCompare⟩, _, restarted,
    by decide +kernel, commits_match_speculation collisionFree restarted⟩
  rfl

end Hotstuff
