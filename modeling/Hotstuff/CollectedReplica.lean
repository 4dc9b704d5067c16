import Hotstuff.CollectorView
import Hotstuff.Reload

/-!
# A replica and its collector thread

In the other files a collection of block bodies is a single step.  Here the
thread of `BlockGarbageCollector` runs beside the replica, one round of its loop
at a time, so that blocks arrive and are committed while a pass is under way.

Every run is one of `GarbageCollection` in the collector's view.  What holds
there about flushed blocks shows that `update` finds the bodies of all blocks
above the last executed one.  The collector changes the flags and the bodies of
blocks that lie far below it, and `update` reads neither, so it makes no
difference at which moment of an `update` a round takes place.
-/

namespace Hotstuff

section Collected

variable [WireTypes] [Externals]

structure CollectedReplica where
  core : HotstuffCore
  pass : Option GcPass
  /-- the wire blocks of which the block objects were made -/
  made : List HotstuffBlockWire

namespace CollectedReplica

inductive Action
  | event (event : HotstuffCore.Event)
  /-- the collector thread leaves its critical section with a height -/
  | startPass
  /-- the collector thread does one round of its loop -/
  | stepPass

/-- No object is inserted twice, and the collector has its own actions. -/
def Admitted (core : HotstuffCore) : HotstuffCore.Event → Prop
  | .insertBlock p => ¬ (core.block p).Linked
  | .garbageCollect => False
  | _ => True

instance decidableAdmitted (core : HotstuffCore) :
    (event : HotstuffCore.Event) → Decidable (Admitted core event)
  | .receiveBlock _ _ => inferInstanceAs (Decidable True)
  | .insertBlock _ => inferInstanceAs (Decidable (¬ _))
  | .vote _ _ _ => inferInstanceAs (Decidable True)
  | .selfVote _ => inferInstanceAs (Decidable True)
  | .proposal _ _ => inferInstanceAs (Decidable True)
  | .doPropose _ => inferInstanceAs (Decidable True)
  | .doEmptyPropose _ => inferInstanceAs (Decidable True)
  | .garbageCollect => inferInstanceAs (Decidable False)

def Enabled (replica : CollectedReplica) : Action → Prop
  | .event event => replica.core.Enabled event ∧ Admitted replica.core event
  | .startPass =>
      replica.pass = none ∧
        replica.core.store.hotstuffHeightToGc.isSome = true
  | .stepPass => replica.pass.isSome = true

instance decidableEnabled (replica : CollectedReplica) :
    (action : Action) → Decidable (replica.Enabled action)
  | .event _ => inferInstanceAs (Decidable (_ ∧ _))
  | .startPass => inferInstanceAs (Decidable (_ ∧ _))
  | .stepPass => inferInstanceAs (Decidable (_ = _))

/-- Process an event and note of what new objects were made. -/
def handle (replica : CollectedReplica) (event : HotstuffCore.Event) :
    CollectedReplica :=
  let core := replica.core.step event
  { replica with
    core := core
    made := replica.made ++
      (core.store.heap.drop replica.made.length).map HotstuffBlock.wireBlock }

/-- The same replica with another block store. -/
def withStore (replica : CollectedReplica) (store : BlockStore)
    (pass : Option GcPass) : CollectedReplica :=
  { replica with core := { replica.core with store := store }, pass := pass }

def next (replica : CollectedReplica) : Action → CollectedReplica
  | .event event => replica.handle event
  | .startPass =>
      replica.withStore replica.core.store.startPass
        (replica.core.store.hotstuffHeightToGc.map fun hotstuffHeight =>
          { hotstuffHeight := hotstuffHeight, iter := 0 })
  | .stepPass =>
      match replica.pass with
      | none => replica
      | some pass =>
          replica.withStore (replica.core.store.stepPass pass).1
            (replica.core.store.stepPass pass).2

/-- A core that was started with `init_clean` or reloaded from any disk. -/
def Started (selfId : ReplicaID) (config : ReplicaConfig)
    (secretKey : SecretKey) (core : HotstuffCore) : Prop :=
  core = .init selfId config secretKey ∨
    ∃ disk highest,
      (HotstuffCore.init selfId config secretKey).reloadDecidedBlocks disk =
        .ok (core, highest)

def start (core : HotstuffCore) : CollectedReplica where
  core := core
  pass := none
  made := core.store.heap.map HotstuffBlock.wireBlock

/-- All interleavings of the replica's events with the collector thread. -/
def system (selfId : ReplicaID) (config : ReplicaConfig)
    (secretKey : SecretKey) : TransitionSystem CollectedReplica Action where
  initial := fun replica => ∃ core,
    Started selfId config secretKey core ∧ replica = start core
  enabled := Enabled
  next := next

instance decidableSystemEnabled (selfId : ReplicaID) (config : ReplicaConfig)
    (secretKey : SecretKey) (replica : CollectedReplica) (action : Action) :
    Decidable ((system selfId config secretKey).enabled replica action) :=
  decidableEnabled replica action

def collection (replica : CollectedReplica) : GarbageCollection BlockPtr :=
  replica.core.collection replica.pass

/-! ### The invariant -/

/-- What holds of a replica next to its collector. -/
structure Sound (replica : CollectedReplica) : Prop where
  tree : replica.core.store.WellFormed
  execPlaced : replica.core.store.Placed replica.core.bExec
  unlinkedIntact : ∀ p, p ≠ 0 → p < replica.core.store.heap.length →
    ¬ (replica.core.block p).Linked →
      (replica.core.block p).flushedFromMemory = false
  madeLength : replica.made.length = replica.core.store.heap.length
  intactMade : ∀ p, (replica.core.block p).flushedFromMemory = false →
    replica.made[p]? = some (replica.core.block p).wireBlock
  collected : (GarbageCollection.system BlockPtr).Reachable replica.collection

/-- The object still has the body with which it was made. -/
structure FullBody (replica : CollectedReplica) (p : BlockPtr) : Prop where
  intact : (replica.core.block p).flushedFromMemory = false
  asMade : replica.made[p]? = some (replica.core.block p).wireBlock

/-- Every flushed block but genesis is at least 101 below the last executed
one. -/
theorem Sound.flushedOld {replica : CollectedReplica} (sound : replica.Sound)
    {p : BlockPtr} (notGenesis : p ≠ 0)
    (bound : p < replica.core.store.heap.length)
    (flushed : (replica.core.block p).flushedFromMemory = true) :
    replica.core.store.height p + 101 ≤
      replica.core.store.height replica.core.bExec := by
  have linked : (replica.core.block p).Linked := by
    by_contra unlinked
    have intact := sound.unlinkedIntact p notGenesis bound unlinked
    exact Bool.false_ne_true (intact.symm.trans flushed)
  have seen : replica.collection.flushed p = true := by
    change ((replica.core.block p).parentBlockPtr.isSome &&
      (replica.core.block p).flushedFromMemory) = true
    rw [flushed, Bool.and_true]
    exact linked
  exact ((GarbageCollection.consistent_of_reachable
    sound.collected).flushedOld p seen).2

theorem Sound.fullBody {replica : CollectedReplica} (sound : replica.Sound)
    {p : BlockPtr} (above : replica.core.store.height replica.core.bExec <
      replica.core.store.height p) : replica.FullBody p := by
  have linked : (replica.core.block p).Linked :=
    sound.tree.linked_of_height_pos (Nat.zero_lt_of_lt above)
  have intact : (replica.core.block p).flushedFromMemory = false := by
    apply eq_false_of_ne_true
    intro flushed
    have old := sound.flushedOld (sound.tree.ne_zero_of_linked linked)
      (BlockStore.WellFormed.lt_of_linked linked) flushed
    omega
  exact ⟨intact, sound.intactMade p intact⟩

/-! ### Events keep the invariant -/

section Steps

variable {replica : CollectedReplica} (sound : replica.Sound)

include sound

theorem Sound.seen_receiveBlock (wireBlock : HotstuffBlockWire)
    (source : ReplicaID) :
    replica.core.Seen
      (replica.core.step (.receiveBlock wireBlock source)) replica.pass := by
  have same {Property : Type} (property : HotstuffBlock → Property)
      (kept : ∀ (block : HotstuffBlock) (valid : Bool),
        property { block with hashChecked := true, hashValid := valid } =
          property block) :=
    HotstuffBlock.property_validateHotstuff property kept
      (.receiveBlock wireBlock source) replica.core.config
  constructor
  · exact replica.core.store.grown_alloc
      (same HotstuffBlock.flushedFromMemory fun _ _ => rfl)
  · exact .inl rfl
  · exact .inl (HotstuffCore.collection_allocated
      (sound.tree.lt_of_placed sound.execPlaced)
      (same HotstuffBlock.parentBlockPtr fun _ _ => rfl)
      (same HotstuffBlock.blockHeight fun _ _ => rfl) replica.pass)

theorem Sound.seen_proposeBody (nonemptyProposal : Bool) (body : Body) :
    replica.core.Seen (replica.core.proposeBody nonemptyProposal body)
      replica.pass := by
  obtain ⟨grown, exec, view⟩ := HotstuffCore.seen_mintedStore
    (sound.tree.lt_of_placed sound.execPlaced) body replica.pass
  rcases replica.core.proposeBody_cases nonemptyProposal body with
    ⟨-, result⟩ | ⟨-, result⟩ <;> rw [result] <;>
    exact ⟨grown, exec, view⟩

theorem Sound.seen_step {event : HotstuffCore.Event}
    (enabled : replica.core.Enabled event)
    (admitted : Admitted replica.core event) :
    replica.core.Seen (replica.core.step event) replica.pass := by
  cases event with
  | receiveBlock wireBlock source => exact sound.seen_receiveBlock _ _
  | insertBlock p =>
      obtain ⟨-, notGenesis, bound⟩ := enabled
      apply HotstuffCore.seen_insertBlock _ bound admitted
      · exact sound.unlinkedIntact p notGenesis bound admitted
      · rintro rfl
        rcases sound.execPlaced with isGenesis | linked
        · exact notGenesis isGenesis
        · exact admitted linked
  | vote cert p voter =>
      obtain ⟨same, sameExec⟩ :=
        replica.core.undisturbed_onReceiveVote cert p voter
      exact .of_undisturbed same sameExec replica.pass
  | selfVote p =>
      obtain ⟨same, sameExec⟩ := replica.core.undisturbed_onReceiveVote
        (PartialCertificate.sign (replica.core.block p).getHash
          replica.core.secretKey) p replica.core.selfId
      exact .of_undisturbed same sameExec replica.pass
  | proposal p proposer =>
      exact HotstuffCore.seen_onReceiveProposal sound.tree p proposer
        replica.pass
  | doPropose body => exact sound.seen_proposeBody _ body
  | doEmptyPropose body => exact sound.seen_proposeBody _ body
  | garbageCollect => exact admitted.elim

omit sound in
/-- The objects that exist keep their entries, and new objects get one. -/
theorem getElem?_made_handle {event : HotstuffCore.Event} {p : BlockPtr}
    (recorded : replica.made.length = replica.core.store.heap.length) :
    (replica.handle event).made[p]? =
      if p < replica.core.store.heap.length then replica.made[p]?
      else (replica.core.step event).store.heap[p]?.map
        HotstuffBlock.wireBlock := by
  change (replica.made ++ ((replica.core.step event).store.heap.drop
    replica.made.length).map HotstuffBlock.wireBlock)[p]? = _
  rw [List.getElem?_append, recorded]
  split
  · rfl
  · rename_i new
    rw [List.getElem?_map, List.getElem?_drop,
      Nat.add_sub_cancel' (Nat.le_of_not_lt new)]

theorem Sound.handle {event : HotstuffCore.Event}
    (enabled : replica.core.Enabled event)
    (admitted : Admitted replica.core event) :
    (replica.handle event).Sound := by
  obtain ⟨tree, longer⟩ := HotstuffCore.grows_step sound.tree enabled
  obtain ⟨grown, exec, view⟩ := sound.seen_step enabled admitted
  have content {p : BlockPtr} (old : p < replica.core.store.heap.length) :
      ((replica.core.step event).block p).wireBlock =
          (replica.core.block p).wireBlock ∧
        ((replica.core.step event).block p).flushedFromMemory =
          (replica.core.block p).flushedFromMemory :=
    Prod.mk.inj (grown.content p old)
  constructor
  · exact tree
  · rcases exec with sameExec | placed
    · change (replica.core.step event).store.Placed
        (replica.core.step event).bExec
      rw [sameExec]
      exact longer.placed sound.execPlaced
    · exact longer.placed placed
  · intro p notGenesis bound unlinked
    by_cases old : p < replica.core.store.heap.length
    · have flag := (content old).2
      have before : ¬ (replica.core.block p).Linked :=
        fun linked => unlinked (grown.linked p linked)
      exact flag.trans (sound.unlinkedIntact p notGenesis old before)
    · exact grown.fresh p (Nat.le_of_not_lt old) bound
  · have length := grown.length
    change (replica.made ++ ((replica.core.step event).store.heap.drop
      replica.made.length).map HotstuffBlock.wireBlock).length =
        (replica.core.step event).store.heap.length
    rw [List.length_append, List.length_map, List.length_drop,
      sound.madeLength]
    omega
  · intro p intact
    rw [getElem?_made_handle sound.madeLength]
    split
    · rename_i old
      obtain ⟨wireEq, flag⟩ := content old
      change _ = some ((replica.core.step event).block p).wireBlock
      rw [wireEq]
      exact sound.intactMade p (flag.symm.trans intact)
    · have object : (replica.core.step event).store.heap[p]? =
          some ((replica.core.step event).store.block p) :=
        BlockStore.getElem?_of_intact intact
      rw [object]
      rfl
  · rcases view with same | ⟨action, allowed, viewEq⟩
    · change (GarbageCollection.system BlockPtr).Reachable
        ((replica.core.step event).collection replica.pass)
      rw [same]
      exact sound.collected
    · change (GarbageCollection.system BlockPtr).Reachable
        ((replica.core.step event).collection replica.pass)
      rw [viewEq]
      exact sound.collected.step allowed

theorem Sound.startPass
    (enabled : replica.Enabled .startPass) :
    (replica.next .startPass).Sound := by
  obtain ⟨idle, requested⟩ := enabled
  obtain ⟨hotstuffHeight, slot⟩ := Option.isSome_iff_exists.mp requested
  have same : replica.core.store.SameTree replica.core.store.startPass :=
    ⟨rfl, rfl, fun _ => rfl⟩
  refine
    { tree := same.wellFormed sound.tree
      execPlaced := (same.placed _).mpr sound.execPlaced
      unlinkedIntact := sound.unlinkedIntact
      madeLength := sound.madeLength
      intactMade := sound.intactMade
      collected := ?_ }
  have allowed : (GarbageCollection.system BlockPtr).enabled
      replica.collection .startPass := ⟨idle, requested⟩
  have viewEq : (replica.next .startPass).collection =
      replica.collection.next .startPass := by
    simp only [CollectedReplica.next, GarbageCollection.next, collection,
      HotstuffCore.collection, BlockStore.collection, withStore, slot]
    rfl
  rw [viewEq]
  exact sound.collected.step allowed

/-- The list of the collector holds blocks of the tree only. -/
theorem Sound.linked_of_listed {p : BlockPtr}
    (listed : p ∈ replica.core.store.gcList) :
    (replica.core.block p).Linked :=
  (GarbageCollection.consistent_of_reachable
    sound.collected).inserted_of_listed listed

theorem Sound.stepPass {pass : GcPass} (current : replica.pass = some pass) :
    (replica.next .stepPass).Sound := by
  have same := replica.core.store.sameTree_stepPass pass
  have nextEq : replica.next .stepPass =
      replica.withStore (replica.core.store.stepPass pass).1
        (replica.core.store.stepPass pass).2 := by
    simp only [CollectedReplica.next, current]
  have viewEq : (replica.next .stepPass).collection =
      replica.collection.next .stepPass := by
    rw [nextEq]
    change (replica.core.store.stepPass pass).1.collection
      (replica.core.store.stepPass pass).2
      ((replica.core.store.stepPass pass).1.height replica.core.bExec) = _
    rw [same.height, replica.core.store.collection_stepPass pass _
      fun p listed => sound.linked_of_listed listed]
    simp only [GarbageCollection.next, collection, HotstuffCore.collection,
      BlockStore.collection, current]
  have allowed : (GarbageCollection.system BlockPtr).enabled
      replica.collection .stepPass := by
    change replica.pass.isSome = true
    rw [current]
    rfl
  have collected := sound.collected.step allowed
  change (GarbageCollection.system BlockPtr).Reachable
    (replica.collection.next .stepPass) at collected
  rw [← viewEq] at collected
  rw [nextEq] at collected ⊢
  refine
    { tree := same.wellFormed sound.tree
      execPlaced := (same.placed _).mpr sound.execPlaced
      unlinkedIntact := ?_
      madeLength := sound.madeLength.trans same.length.symm
      intactMade := ?_
      collected := collected }
  · intro p notGenesis bound unlinked
    have before : ¬ (replica.core.block p).Linked := fun linked =>
      unlinked ((BlockStore.linked_of_links (same.links p)).mpr linked)
    have unlisted : p ∉ replica.core.store.gcList := fun listed =>
      before (sound.linked_of_listed listed)
    change ((replica.core.store.stepPass pass).1.block p).flushedFromMemory =
      false
    rw [BlockStore.block_stepPass _ pass unlisted]
    exact sound.unlinkedIntact p notGenesis (same.length ▸ bound) before
  · intro p intact
    have unchanged := replica.core.store.content_stepPass pass intact
    change replica.made[p]? =
      some ((replica.core.store.stepPass pass).1.block p).wireBlock
    rw [unchanged]
    apply sound.intactMade p
    rw [HotstuffCore.block, ← unchanged]
    exact intact

theorem Sound.next {action : Action} (enabled : replica.Enabled action) :
    (replica.next action).Sound := by
  cases action with
  | event event => exact sound.handle enabled.1 enabled.2
  | startPass => exact sound.startPass enabled
  | stepPass =>
      obtain ⟨pass, current⟩ := Option.isSome_iff_exists.mp enabled
      exact sound.stepPass current

end Steps

/-! ### Starting clean or from disk -/

/-- A store without flushed blocks all of whose objects are held. -/
structure Loaded (store : BlockStore) : Prop where
  tree : store.WellFormed
  intact : ∀ p, p ≠ 0 → p < store.heap.length →
    (store.block p).flushedFromMemory = false
  collected : ∀ committed, (GarbageCollection.system BlockPtr).Reachable
    (store.collection none committed)

theorem Loaded.init : Loaded .init where
  tree := BlockStore.wellFormed_init
  intact := fun _ notGenesis bound => absurd (Nat.lt_one_iff.mp bound) notGenesis
  collected := by
    intro committed
    have single (p : BlockPtr) : BlockStore.init.block p = .genesisBlock := by
      cases p <;> rfl
    apply TransitionSystem.Reachable.initial
    refine ⟨committed, ?_⟩
    have heights : BlockStore.init.height = fun _ => 0 := by
      funext p
      rw [BlockStore.height, single]
      rfl
    simp only [BlockStore.collection, single, heights]
    rfl

/-- A loaded block is inserted before the next one is made. -/
theorem Loaded.insert {store : BlockStore} (loaded : Loaded store)
    (wireBlock : HotstuffBlockWire) :
    Loaded ((store.alloc (.ofDisk wireBlock)).1.insertBlock
      store.heap.length).1 := by
  have made : (store.alloc (.ofDisk wireBlock)).1.block store.heap.length =
      .ofDisk wireBlock := by
    rw [BlockStore.block_alloc, if_pos rfl]
  have bound : store.heap.length <
      (store.alloc (.ofDisk wireBlock)).1.heap.length := by
    simp [BlockStore.alloc]
  have fresh : (HotstuffBlock.ofDisk wireBlock).links =
      (HotstuffBlock.new wireBlock unknownReplica).links := rfl
  have allocated : store.Grown (store.alloc (.ofDisk wireBlock)).1 :=
    store.grown_alloc rfl
  have grown := allocated.trans
    (BlockStore.grown_insertBlock _ store.heap.length)
  constructor
  · exact ((loaded.tree.alloc fresh).insertBlock loaded.tree.nonempty.ne'
      bound).1
  · intro p notGenesis inside
    by_cases old : p < store.heap.length
    · have flag := congrArg Prod.snd (grown.content p old)
      exact flag.trans (loaded.intact p notGenesis old)
    · exact grown.fresh p (Nat.le_of_not_lt old) inside
  · intro committed
    have unchanged : (store.alloc (.ofDisk wireBlock)).1.collection none
        committed = store.collection none committed :=
      store.collection_alloc rfl rfl none committed
    have before := loaded.collected committed
    rw [← unchanged] at before
    rcases BlockStore.insertBlock_cases (store.alloc (.ofDisk wireBlock)).1
        store.heap.length with
      ⟨parent, justify, -, -, result, -⟩ | ⟨-, result, -⟩ <;> rw [result]
    · have allowed : (GarbageCollection.system BlockPtr).enabled
          ((store.alloc (.ofDisk wireBlock)).1.collection none committed)
          (.insert store.heap.length
            ((store.alloc (.ofDisk wireBlock)).1.height parent + 1)) := by
        change ((store.alloc (.ofDisk wireBlock)).1.block
          store.heap.length).parentBlockPtr.isSome = false
        rw [made]
        rfl
      rw [BlockStore.collection_addLinked _ parent justify bound
        (by rw [made]; rfl)]
      exact before.step allowed
    · exact before

theorem Loaded.reloadBlock {disk : Disk} {loaded after : BlockStore × Nat}
    (valid : Loaded loaded.1) {hash : Hash}
    (result : disk.reloadBlock loaded hash = .ok after) : Loaded after.1 := by
  unfold Disk.reloadBlock Disk.loadDecidedBlock at result
  cases found : disk.loadBlock hash with
  | none =>
      rw [found] at result
      cases result
  | some wireBlock =>
      rw [found] at result
      dsimp only [bind, Except.bind] at result
      split at result
      · cases result
      · cases result
        exact valid.insert wireBlock

theorem Loaded.reloadBlocks {disk : Disk} {hashes : List Hash}
    {loaded after : BlockStore × Nat} (valid : Loaded loaded.1)
    (result : hashes.foldlM disk.reloadBlock loaded = .ok after) :
    Loaded after.1 := by
  induction hashes generalizing loaded with
  | nil =>
      cases result
      exact valid
  | cons hash hashes ih =>
      rw [List.foldlM_cons] at result
      cases step : disk.reloadBlock loaded hash with
      | error message =>
          rw [step] at result
          cases result
      | ok next =>
          rw [step] at result
          exact ih (valid.reloadBlock step) result

/-- The last executed block is looked up in the block store. -/
theorem reloadStateFromIndex_ok {core reloaded : HotstuffCore} {disk : Disk}
    (result : core.reloadStateFromIndex disk = .ok reloaded) :
    reloaded.store = core.store ∧
      ∃ hash, core.store.getBlock hash = some reloaded.bExec := by
  unfold HotstuffCore.reloadStateFromIndex HotstuffCore.findBlockByHash
    Disk.getHighestQc at result
  cases top : disk.qcOnTopBlock with
  | none =>
      rw [top] at result
      cases result
  | some qc =>
      rw [top] at result
      dsimp only [bind, Except.bind] at result
      cases found : core.store.getBlock
          (QuorumCertificate.ofWire qc).objHash with
      | none =>
          rw [found] at result
          cases result
      | some p =>
          rw [found] at result
          cases result
          exact ⟨HotstuffCore.updateHqc_store core _ _, _, found⟩

theorem Started.loaded {selfId : ReplicaID} {config : ReplicaConfig}
    {secretKey : SecretKey} {core : HotstuffCore}
    (started : Started selfId config secretKey core) :
    Loaded core.store ∧ core.store.Placed core.bExec := by
  rcases started with rfl | ⟨disk, highest, result⟩
  · exact ⟨.init, .inl rfl⟩
  unfold HotstuffCore.reloadDecidedBlocks at result
  cases loaded : (disk.decidedHashIndex.entries.map Prod.snd).foldlM
      disk.reloadBlock ((HotstuffCore.init selfId config secretKey).store, 0) with
  | error message =>
      rw [loaded] at result
      cases result
  | ok after =>
      have valid := Loaded.init.reloadBlocks loaded
      rw [loaded] at result
      dsimp only [bind, Except.bind] at result
      split at result
      · cases result
      · rename_i reloaded indexed
        cases result
        obtain ⟨storeEq, hash, found⟩ := reloadStateFromIndex_ok indexed
        rw [storeEq]
        exact ⟨valid, (valid.tree.cacheSound hash _ found).2⟩

theorem Sound.start {core : HotstuffCore} (loaded : Loaded core.store)
    (execPlaced : core.store.Placed core.bExec) : (start core).Sound where
  tree := loaded.tree
  execPlaced := execPlaced
  unlinkedIntact := fun p notGenesis bound _ => loaded.intact p notGenesis bound
  madeLength := List.length_map _
  intactMade := by
    intro p intact
    have object : core.store.heap[p]? = some (core.store.block p) :=
      BlockStore.getElem?_of_intact intact
    change (core.store.heap.map HotstuffBlock.wireBlock)[p]? = _
    rw [List.getElem?_map, object]
    rfl
  collected := loaded.collected _

theorem sound_of_reachable {selfId : ReplicaID} {config : ReplicaConfig}
    {secretKey : SecretKey} {replica : CollectedReplica}
    (reached : (system selfId config secretKey).Reachable replica) :
    replica.Sound := by
  refine reached.invariant Sound ?_ ?_
  · rintro _ ⟨core, started, rfl⟩
    obtain ⟨loaded, execPlaced⟩ := started.loaded
    exact .start loaded execPlaced
  · intro state action _ sound enabled
    exact sound.next enabled

/-! ### What is applied and saved -/

/-- An applied block lies above the last executed one and has its full body; so
does a saved block that lies there. -/
def Intact (replica : CollectedReplica) : Effect → Prop
  | .applyBlock block => ∃ p,
      block.links = (replica.core.block p).links ∧
      block.content = (replica.core.block p).content ∧
      replica.core.store.height replica.core.bExec <
        replica.core.store.height p ∧
      replica.FullBody p
  | .saveBlock wireBlock => ∃ p,
      wireBlock = (replica.core.block p).wireBlock ∧
      (replica.core.block p).writtenToDisk = false ∧
      (replica.core.store.height replica.core.bExec <
        replica.core.store.height p → replica.FullBody p)
  | _ => True

/-- The effects in between are intact. -/
def AddsIntact (replica : CollectedReplica) (before after : List Effect) :
    Prop :=
  ∃ effects, after = effects ++ before ∧
    ∀ effect ∈ effects, replica.Intact effect

omit [Externals] in
theorem AddsIntact.refl (replica : CollectedReplica) (trace : List Effect) :
    replica.AddsIntact trace trace :=
  ⟨[], rfl, by simp⟩

omit [Externals] in
theorem AddsIntact.trans {replica : CollectedReplica}
    {first second third : List Effect}
    (earlier : replica.AddsIntact first second)
    (later : replica.AddsIntact second third) :
    replica.AddsIntact first third := by
  obtain ⟨effects, rfl, intact⟩ := earlier
  obtain ⟨effects', rfl, intact'⟩ := later
  refine ⟨effects' ++ effects, by rw [List.append_assoc], ?_⟩
  intro effect member
  rcases List.mem_append.mp member with member | member
  · exact intact' effect member
  · exact intact effect member

omit [Externals] in
theorem AddsIntact.cons {replica : CollectedReplica} {before after : List Effect}
    (earlier : replica.AddsIntact before after) {effect : Effect}
    (intact : replica.Intact effect) :
    replica.AddsIntact before (effect :: after) :=
  earlier.trans ⟨[effect], rfl, List.forall_mem_singleton.mpr intact⟩

section Update

variable {replica : CollectedReplica} (sound : replica.Sound)

include sound

/-- The blocks that are saved when the lock moves. -/
theorem Sound.addsIntact_lockAndWrite {core : HotstuffCore}
    (sameStore : core.store = replica.core.store) (blk1 : BlockPtr) :
    replica.AddsIntact core.trace (core.lockAndWrite blk1).trace := by
  refine ⟨_, rfl, ?_⟩
  intro effect member
  rw [List.mem_reverse] at member
  obtain ⟨wireBlock, saved, rfl⟩ := List.mem_map.mp member
  obtain ⟨p, -, -, wireEq, unwritten⟩ := BlockStore.saved_writeToDisk saved
  rw [sameStore] at wireEq unwritten
  exact ⟨p, wireEq.symm, unwritten, fun above => sound.fullBody above⟩

omit sound in
theorem addsIntact_updateHqc {core : HotstuffCore} (blk2 : BlockPtr)
    (qc : QuorumCertificate) :
    replica.AddsIntact core.trace (core.updateHqc blk2 qc).trace := by
  rcases core.updateHqc_cases blk2 qc with
    ⟨-, effects, notified, result⟩ | ⟨-, result⟩ <;> rw [result]
  · refine ⟨effects, rfl, ?_⟩
    intro effect member
    rw [notified effect member]
    trivial
  · exact .refl replica core.trace

/-- The blocks of the commit queue lie above the last executed block. -/
theorem Sound.addsIntact_commit {core : HotstuffCore}
    (same : replica.core.store.Undisturbed core.store)
    {commitQueue : List BlockPtr} {blk : BlockPtr} (qc : QuorumCertificate)
    (walked : replica.core.store.walk
      (replica.core.store.height replica.core.bExec)
      (replica.core.store.height blk) blk =
        some (commitQueue, replica.core.bExec)) :
    replica.AddsIntact core.trace (core.commit commitQueue blk qc).trace := by
  obtain ⟨chain, -, above⟩ := BlockStore.walk_cases walked
  have bound : ∀ p ∈ commitQueue, p < core.store.heap.length := by
    intro p member
    rw [same.tree.length]
    exact BlockStore.WellFormed.lt_of_linked (chain.linked_of_mem member)
  obtain ⟨_, _, result⟩ := core.commit_eq commitQueue blk qc
    (sound.tree.chain_nodup chain) bound
  rw [result]
  have applied : replica.AddsIntact core.trace
      ((core.commitEffects commitQueue.reverse).reverse ++ core.trace) := by
    refine ⟨_, rfl, ?_⟩
    intro effect member
    obtain ⟨p, queued, isEffect⟩ :=
      HotstuffCore.mem_commitEffects (List.mem_reverse.mp member)
    have high := above p (List.mem_reverse.mp queued)
    rcases isEffect with rfl | rfl
    · exact ⟨p, same.tree.links p, same.content p, high, sound.fullBody high⟩
    · trivial
  apply AddsIntact.cons
  · apply AddsIntact.cons applied
    trivial
  · trivial

theorem Sound.addsIntact_update {core : HotstuffCore}
    (sameStore : core.store = replica.core.store)
    (sameExec : core.bExec = replica.core.bExec) (nblk : BlockPtr) :
    replica.AddsIntact core.trace (core.update nblk).trace := by
  have raised {blk2 : BlockPtr} :
      replica.AddsIntact core.trace
        (core.updateHqc blk2 (core.block nblk).getJustifyQc).trace :=
    addsIntact_updateHqc blk2 _
  have locked {blk2 blk1 : BlockPtr} :
      replica.AddsIntact core.trace
        ((core.updateHqc blk2 (core.block nblk).getJustifyQc).lockAndWrite
          blk1).trace := by
    apply raised.trans
    apply sound.addsIntact_lockAndWrite
    rw [HotstuffCore.updateHqc_store, sameStore]
  have outcome := HotstuffCore.update_result core nblk
  generalize core.update nblk = after at outcome ⊢
  cases outcome with
  | skip => exact .refl replica core.trace
  | certificate => exact raised
  | lock => exact locked
  | fail => exact locked
  | @commit blk2 blk1 blk commitQueue _ _ _ _ _ _ _ _ walked =>
      have same := (core.undisturbed_lockAndWrite blk2 blk1
        (core.block nblk).getJustifyQc).1
      rw [sameStore] at same walked
      rw [sameExec] at walked
      exact locked.trans (sound.addsIntact_commit same _ walked)

theorem Sound.addsIntact_onReceiveProposal (p : BlockPtr)
    (proposer : ReplicaID) :
    replica.AddsIntact replica.core.trace
      (replica.core.onReceiveProposal p proposer).trace := by
  rcases HotstuffCore.onReceiveProposal_cases sound.tree p proposer with
    ⟨-, result⟩ | ⟨-, result⟩ <;> rw [result]
  · have voted : replica.AddsIntact replica.core.trace
        (replica.core.castVote p proposer).trace :=
      (AddsIntact.refl replica replica.core.trace).cons trivial
    apply voted.trans
    apply sound.addsIntact_update
    · rfl
    · rfl
  · exact sound.addsIntact_update rfl rfl p

end Update

/-- Everything about flushing that holds of a replica with its collector
thread. -/
structure KeepsBodies (replica : CollectedReplica) : Prop where
  /-- the replica is one of the users that the collector is judged with -/
  collected : (GarbageCollection.system BlockPtr).Reachable replica.collection
  flushedOld : ∀ p, p ≠ 0 → p < replica.core.store.heap.length →
    (replica.core.block p).flushedFromMemory = true →
      replica.core.store.height p + 101 ≤
        replica.core.store.height replica.core.bExec
  fullAbove : ∀ p, replica.core.store.height replica.core.bExec <
    replica.core.store.height p → replica.FullBody p
  proposals : ∀ p proposer, replica.AddsIntact replica.core.trace
    (replica.core.onReceiveProposal p proposer).trace

theorem Sound.keepsBodies {replica : CollectedReplica}
    (sound : replica.Sound) : replica.KeepsBodies where
  collected := sound.collected
  flushedOld := fun _ notGenesis bound flushed =>
    sound.flushedOld notGenesis bound flushed
  fullAbove := fun _ above => sound.fullBody above
  proposals := sound.addsIntact_onReceiveProposal

end CollectedReplica

/-- The collector holds every block that is not flushed, a pass flushes the
blocks below its height, and flushed blocks are old, for any users; so no
proposal makes a replica apply or save a flushed block above the last executed
one. -/
theorem bodies_kept_until_applied (Object : Type*) [DecidableEq Object]
    (selfId : ReplicaID) (config : ReplicaConfig) (secretKey : SecretKey) :
    (∀ state, (GarbageCollection.system Object).Reachable state →
      state.HeldOnce ∧ state.PassesSweep ∧ state.PassEnds ∧
        state.FlushedOld) ∧
    ∀ replica,
      (CollectedReplica.system selfId config secretKey).Reachable replica →
        replica.KeepsBodies := by
  constructor
  · intro state reached
    have consistent := GarbageCollection.consistent_of_reachable reached
    exact ⟨consistent.heldOnce,
      GarbageCollection.passesSweep_of_reachable reached,
      GarbageCollection.passEnds state, consistent.flushedOld⟩
  · intro replica reached
    exact (CollectedReplica.sound_of_reachable reached).keepsBodies

end Collected

/-! ### A pass that flushes, and a commit during a pass -/

namespace Symbolic.Collect

open scoped Symbolic
open CollectedReplica

/-- Two blocks wait when height 105 is committed. -/
def requested : GarbageCollection Nat :=
  (GarbageCollection.system Nat).run (.start 0)
    [.insert 1 3, .insert 2 60, .commit 105]

/-- A third block is inserted while the pass is under way. -/
def rounds : List (GarbageCollection.Action Nat) :=
  [.insert 3 2, .stepPass, .stepPass, .stepPass]

/-- A block on the given one, with a body of its own. -/
def blockAfter (wireBlock : HotstuffBlockWire) (body : Body) :
    HotstuffBlockWire :=
  blockOn (hashHeader wireBlock.header)
    (certificateOn (hashHeader wireBlock.header)) body

def c1 := blockOn zeroHash genesisQc [1]
def c2 := blockAfter c1 [2]
def c3 := blockAfter c2 [3]
def c4 := blockAfter c3 [4]
def c5 := blockAfter c4 [5]

/-- The first block is committed, and the fifth one arrives during the pass that
follows. -/
def actions : List Action :=
  (([c1, c2, c3, c4].zipIdx 1).flatMap fun (wireBlock, p) =>
    [.event (.receiveBlock wireBlock 3), .event (.insertBlock p),
      .event (.proposal p 3)]) ++
  [.startPass, .stepPass, .event (.receiveBlock c5 3),
    .event (.insertBlock 5)]

def collecting : CollectedReplica :=
  (CollectedReplica.system 0 fourReplicas (0 : Nat)).run
    (.start (.init 0 fourReplicas (0 : Nat))) actions

end Symbolic.Collect

open scoped Symbolic in
open Symbolic Symbolic.Collect in
theorem bodies_kept_during_pass :
    (requested.PassesSweep ∧
      ((GarbageCollection.system Nat).run (requested.next .startPass)
        rounds).flushed 1 = true ∧
      ((GarbageCollection.system Nat).run (requested.next .startPass)
        rounds).gcList = [2]) ∧
    collecting.pass = some { hotstuffHeight := 0, iter := 1 } ∧
      collecting.core.store.height collecting.core.bExec = 1 ∧
      collecting.made[2]? = some c2 ∧ collecting.FullBody 2 := by
  have idle : (GarbageCollection.system Nat).initial (.start 0) := ⟨0, rfl⟩
  have collector : (GarbageCollection.system Nat).Reachable requested := by
    apply (TransitionSystem.Reachable.initial idle).run
    decide
  have clean : (CollectedReplica.system 0 fourReplicas (0 : Nat)).initial
      (.start (.init 0 fourReplicas (0 : Nat))) := ⟨_, .inl rfl, rfl⟩
  have replica : (CollectedReplica.system 0 fourReplicas
      (0 : Nat)).Reachable collecting := by
    apply (TransitionSystem.Reachable.initial clean).run
    decide +kernel
  have kept := bodies_kept_until_applied Nat 0 fourReplicas (0 : Nat)
  have above : collecting.core.store.height collecting.core.bExec <
      collecting.core.store.height 2 := by
    decide +kernel
  refine ⟨⟨(kept.1 requested collector).2.1, ?_, ?_⟩, ?_, ?_, ?_,
    (kept.2 collecting replica).fullAbove 2 above⟩
  · decide
  · decide
  · decide +kernel
  · decide +kernel
  · decide +kernel

end Hotstuff
