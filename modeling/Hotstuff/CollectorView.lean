import Hotstuff.GarbageCollection
import Hotstuff.Replica

/-!
# The block store seen from the collector

The collector knows of a block object its height, whether it was inserted and
whether it was flushed.  In this view most of what a replica does is invisible;
an insertion into the block store, a commit and a round of the collector thread
are the actions of `GarbageCollection`.
-/

namespace Hotstuff

variable [WireTypes]

/-- What `flush_from_memory` changes. -/
def HotstuffBlock.content (block : HotstuffBlock) : HotstuffBlockWire × Bool :=
  (block.wireBlock, block.flushedFromMemory)

namespace BlockStore

/-- What the collector sees of the block store. -/
def collection (store : BlockStore) (pass : Option GcPass) (committed : Nat) :
    GarbageCollection BlockPtr where
  hotstuffHeightToGc := store.hotstuffHeightToGc
  gcList := store.gcList
  gcListBuffer := store.gcListBuffer
  pass := pass
  inserted := fun p => (store.block p).parentBlockPtr.isSome
  height := store.height
  flushed := fun p =>
    (store.block p).parentBlockPtr.isSome && (store.block p).flushedFromMemory
  committed := committed

/-- The critical section of the collector thread. -/
def startPass (store : BlockStore) : BlockStore :=
  { store with
    gcList := store.gcList ++ store.gcListBuffer
    gcListBuffer := []
    hotstuffHeightToGc := none }

/-- `flush_from_memory` on the block at the iterator, which then leaves the
list. -/
def flushListed (store : BlockStore) (iter : Nat) (p : BlockPtr) : BlockStore :=
  { store.modifyBlock p flushFromMemory with
    gcList := swapRemove store.gcList iter p }

/-- One round of the loop in `do_gc`, or its end. -/
def stepPass (store : BlockStore) (pass : GcPass) :
    BlockStore × Option GcPass :=
  match store.gcList[pass.iter]? with
  | none => (store, none)
  | some p =>
      if store.height p < pass.hotstuffHeight then
        (store.flushListed pass.iter p, some pass)
      else (store, some { pass with iter := pass.iter + 1 })

/-! ### What leaves the collector alone -/

/-- The tree, the bodies and the lists of the collector are the same. -/
structure Undisturbed (before after : BlockStore) : Prop where
  tree : SameTree before after
  gcList : after.gcList = before.gcList
  gcListBuffer : after.gcListBuffer = before.gcListBuffer
  hotstuffHeightToGc : after.hotstuffHeightToGc = before.hotstuffHeightToGc
  content : ∀ p, (after.block p).content = (before.block p).content

theorem Undisturbed.refl (store : BlockStore) : Undisturbed store store :=
  ⟨.refl store, rfl, rfl, rfl, fun _ => rfl⟩

theorem Undisturbed.trans {first second third : BlockStore}
    (upper : Undisturbed first second) (lower : Undisturbed second third) :
    Undisturbed first third where
  tree := upper.tree.trans lower.tree
  gcList := lower.gcList.trans upper.gcList
  gcListBuffer := lower.gcListBuffer.trans upper.gcListBuffer
  hotstuffHeightToGc := lower.hotstuffHeightToGc.trans upper.hotstuffHeightToGc
  content := fun p => (lower.content p).trans (upper.content p)

theorem undisturbed_modifyBlock (store : BlockStore) (p : BlockPtr)
    {change : HotstuffBlock → HotstuffBlock}
    (links : ∀ block, (change block).links = block.links)
    (content : ∀ block, (change block).content = block.content) :
    Undisturbed store (store.modifyBlock p change) where
  tree := sameTree_modifyBlock store p links
  gcList := rfl
  gcListBuffer := rfl
  hotstuffHeightToGc := rfl
  content := property_modifyBlock HotstuffBlock.content change content store p

theorem undisturbed_writeToDisk (steps : Nat) (store : BlockStore)
    (p : BlockPtr) : Undisturbed store (writeToDisk steps store p).1 := by
  induction steps generalizing store p with
  | zero => exact .refl store
  | succ steps ih =>
      have marked : Undisturbed store (store.modifyBlock p .markWritten) :=
        undisturbed_modifyBlock store p (fun _ => rfl) fun _ => rfl
      unfold writeToDisk
      split
      · exact .refl store
      · dsimp only
        split
        · exact marked
        · exact marked.trans (ih _ _)

theorem Undisturbed.collection {before after : BlockStore}
    (same : Undisturbed before after) (pass : Option GcPass)
    (committed : Nat) :
    after.collection pass committed = before.collection pass committed := by
  have flag (p : BlockPtr) :
      (after.block p).flushedFromMemory = (before.block p).flushedFromMemory :=
    congrArg Prod.snd (same.content p)
  have heights : after.height = before.height := funext same.tree.height
  simp only [BlockStore.collection, same.gcList, same.gcListBuffer,
    same.hotstuffHeightToGc, same.tree.parentBlockPtr, flag, heights]

/-! ### Creating and inserting blocks -/

theorem collection_alloc (store : BlockStore) {block : HotstuffBlock}
    (noParent : block.parentBlockPtr = none) (low : block.blockHeight = 0)
    (pass : Option GcPass) (committed : Nat) :
    (store.alloc block).1.collection pass committed =
      store.collection pass committed := by
  have outside : store.block store.heap.length = .genesisBlock :=
    block_of_length_le (Nat.le_refl _)
  have parentEq (p : BlockPtr) : ((store.alloc block).1.block p).parentBlockPtr =
      (store.block p).parentBlockPtr := by
    rw [block_alloc]
    split
    · rename_i new
      rw [new, outside, noParent]
      rfl
    · rfl
  have heightEq : (store.alloc block).1.height = store.height := by
    funext p
    rw [height, height, block_alloc]
    split
    · rename_i new
      rw [new, outside, low]
      rfl
    · rfl
  have flushedEq (p : BlockPtr) :
      ((store.block p).parentBlockPtr.isSome &&
        ((store.alloc block).1.block p).flushedFromMemory) =
      ((store.block p).parentBlockPtr.isSome &&
        (store.block p).flushedFromMemory) := by
    rw [block_alloc]
    split
    · rename_i new
      rw [new, outside]
      rfl
    · rfl
  simp only [collection, parentEq, heightEq, flushedEq]
  rfl

/-- Linking an object for the first time is an insertion of the collector's
view. -/
theorem collection_addLinked (store : BlockStore) {p : BlockPtr}
    (parent justify : BlockPtr) (bound : p < store.heap.length)
    (intact : (store.block p).flushedFromMemory = false)
    (pass : Option GcPass) (committed : Nat) :
    (store.addLinked p parent justify).collection pass committed =
      (store.collection pass committed).insert p (store.height parent + 1) := by
  have self := block_addLinked_self bound parent justify
  have other {q : BlockPtr} (ne : q ≠ p) :
      (store.addLinked p parent justify).block q = store.block q :=
    block_addLinked_of_ne ne.symm parent justify
  have lists : (store.addLinked p parent justify).gcList = store.gcList ∧
      (store.addLinked p parent justify).gcListBuffer =
        store.gcListBuffer ++ [p] ∧
      (store.addLinked p parent justify).hotstuffHeightToGc =
        store.hotstuffHeightToGc := by
    unfold addLinked emplace
    dsimp only
    split <;> exact ⟨rfl, rfl, rfl⟩
  obtain ⟨gcList, gcListBuffer, slot⟩ := lists
  simp only [collection, GarbageCollection.insert, gcList, gcListBuffer, slot,
    GarbageCollection.mk.injEq, true_and, and_true]
  refine ⟨?_, ?_, ?_⟩
  · funext q
    by_cases same : q = p
    · rw [same, self, Function.update_self]
      rfl
    · rw [other same, Function.update_of_ne same]
  · funext q
    by_cases same : q = p
    · rw [same, height, self, Function.update_self]
    · rw [height, other same, Function.update_of_ne same]
      rfl
  · funext q
    by_cases same : q = p
    · rw [same, self]
      simp [intact]
    · rw [other same]

/-! ### Rounds of the collector -/

theorem flushedFromMemory_flushFromMemory (block : HotstuffBlock) :
    (flushFromMemory block).flushedFromMemory = true := by
  unfold flushFromMemory
  split
  · assumption
  · rfl

theorem collection_flushListed (store : BlockStore) {p : BlockPtr}
    (linked : (store.block p).Linked) (iter : Nat) (pass : Option GcPass)
    (committed : Nat) :
    (store.flushListed iter p).collection pass committed =
      (store.collection pass committed).flushListed iter p := by
  have same := sameTree_modifyBlock store p links_flushFromMemory
  have flag (q : BlockPtr) :
      ((store.modifyBlock p flushFromMemory).block q).flushedFromMemory =
        if q = p then true else (store.block q).flushedFromMemory := by
    rw [block_modifyBlock]
    by_cases equal : q = p
    · subst equal
      rw [if_pos ⟨rfl, WellFormed.lt_of_linked linked⟩, if_pos rfl]
      exact flushedFromMemory_flushFromMemory _
    · rw [if_neg fun both => equal both.1.symm, if_neg equal]
  have heights : (store.modifyBlock p flushFromMemory).height = store.height :=
    funext same.height
  have flushed : (fun q => (store.block q).parentBlockPtr.isSome &&
        ((store.modifyBlock p flushFromMemory).block q).flushedFromMemory) =
      Function.update (fun q => (store.block q).parentBlockPtr.isSome &&
        (store.block q).flushedFromMemory) p true := by
    funext q
    rw [flag]
    by_cases equal : q = p
    · subst equal
      rw [if_pos rfl, Function.update_self, Bool.and_true]
      exact linked
    · rw [if_neg equal, Function.update_of_ne equal]
  change { (store.modifyBlock p flushFromMemory).collection pass committed with
    gcList := swapRemove store.gcList iter p } = _
  simp only [collection, same.parentBlockPtr, heights, flushed]
  rfl

theorem collection_stepPass (store : BlockStore) (pass : GcPass)
    (committed : Nat)
    (linked : ∀ p ∈ store.gcList, (store.block p).Linked) :
    (store.stepPass pass).1.collection (store.stepPass pass).2 committed =
      (store.collection (some pass) committed).stepPass pass := by
  cases found : store.gcList[pass.iter]? with
  | none => simp only [stepPass, GarbageCollection.stepPass, collection, found]
  | some p =>
      by_cases below : store.height p < pass.hotstuffHeight
      · have flushed := collection_flushListed store
          (linked p (List.mem_of_getElem? found)) pass.iter (some pass) committed
        simp only [stepPass, found, if_pos below, flushed]
        simp only [GarbageCollection.stepPass, collection, found]
        exact (if_pos below).symm
      · simp only [stepPass, GarbageCollection.stepPass, collection, found,
          if_neg below]
        exact (if_neg below).symm

theorem sameTree_flushListed (store : BlockStore) (iter : Nat)
    (p : BlockPtr) : SameTree store (store.flushListed iter p) := by
  obtain ⟨length, cache, links⟩ :=
    sameTree_modifyBlock store p links_flushFromMemory
  exact ⟨length, cache, links⟩

theorem sameTree_stepPass (store : BlockStore) (pass : GcPass) :
    SameTree store (store.stepPass pass).1 := by
  unfold stepPass
  split
  · exact .refl store
  · split
    · exact sameTree_flushListed store _ _
    · exact .refl store

theorem block_stepPass (store : BlockStore) (pass : GcPass) {p : BlockPtr}
    (unlisted : p ∉ store.gcList) :
    (store.stepPass pass).1.block p = store.block p := by
  unfold stepPass
  split
  · rfl
  rename_i q found
  split
  · change (store.modifyBlock q flushFromMemory).block p = store.block p
    rw [block_modifyBlock, if_neg]
    rintro ⟨rfl, -⟩
    exact unlisted (List.mem_of_getElem? found)
  · rfl

/-- A round changes no block that it does not flush. -/
theorem content_stepPass (store : BlockStore) (pass : GcPass) {p : BlockPtr}
    (intact : ((store.stepPass pass).1.block p).flushedFromMemory = false) :
    (store.stepPass pass).1.block p = store.block p := by
  unfold stepPass at intact ⊢
  split at intact
  · rfl
  rename_i q found
  split at intact
  · rename_i below
    rw [if_pos below]
    change (store.modifyBlock q flushFromMemory).block p = store.block p
    change ((store.modifyBlock q flushFromMemory).block p).flushedFromMemory =
      false at intact
    rw [block_modifyBlock] at intact ⊢
    split at intact
    · rw [flushedFromMemory_flushFromMemory] at intact
      cases intact
    · rename_i other
      rw [if_neg other]
  · rename_i notBelow
    rw [if_neg notBelow]

/-! ### Stores that grow -/

/-- Where there is no object the genesis block is read, which counts as
flushed. -/
theorem getElem?_of_intact {store : BlockStore} {p : BlockPtr}
    (intact : (store.block p).flushedFromMemory = false) :
    store.heap[p]? = some (store.block p) := by
  have bound : p < store.heap.length := by
    by_contra outside
    rw [block_of_length_le (Nat.le_of_not_lt outside)] at intact
    cases intact
  rw [block, List.getD_eq_getElem?_getD, List.getElem?_eq_getElem bound]
  rfl

/-- Objects keep their bodies, and new objects have theirs. -/
structure Grown (before after : BlockStore) : Prop where
  length : before.heap.length ≤ after.heap.length
  content : ∀ p < before.heap.length,
    (after.block p).content = (before.block p).content
  fresh : ∀ p, before.heap.length ≤ p → p < after.heap.length →
    (after.block p).flushedFromMemory = false
  linked : ∀ p, (before.block p).Linked → (after.block p).Linked

theorem Undisturbed.grown {before after : BlockStore}
    (same : Undisturbed before after) : Grown before after where
  length := same.tree.length.ge
  content := fun p _ => same.content p
  fresh := by
    intro p outside inside
    rw [same.tree.length] at inside
    omega
  linked := fun p => (linked_of_links (same.tree.links p)).mpr

theorem Grown.trans {first second third : BlockStore}
    (upper : Grown first second) (lower : Grown second third) :
    Grown first third where
  length := upper.length.trans lower.length
  content := fun p bound =>
    (lower.content p (bound.trans_le upper.length)).trans
      (upper.content p bound)
  fresh := by
    intro p outside inside
    by_cases old : p < second.heap.length
    · have flag : (third.block p).flushedFromMemory =
          (second.block p).flushedFromMemory :=
        congrArg Prod.snd (lower.content p old)
      rw [flag]
      exact upper.fresh p outside old
    · exact lower.fresh p (Nat.le_of_not_lt old) inside
  linked := fun p linked => lower.linked p (upper.linked p linked)

theorem grown_alloc (store : BlockStore) {block : HotstuffBlock}
    (intact : block.flushedFromMemory = false) :
    Grown store (store.alloc block).1 where
  length := by simp [alloc]
  content := by
    intro p bound
    rw [block_alloc, if_neg bound.ne]
  fresh := by
    intro p outside inside
    rw [(lt_or_eq_of_alloc inside).resolve_left (Nat.not_lt.mpr outside),
      block_alloc, if_pos rfl]
    exact intact
  linked := by
    intro p linked
    rw [block_alloc, if_neg (WellFormed.lt_of_linked linked).ne]
    exact linked

theorem grown_insertBlock (store : BlockStore) (p : BlockPtr) :
    Grown store (store.insertBlock p).1 := by
  rcases insertBlock_cases store p with
    ⟨parent, justify, -, -, result, -⟩ | ⟨-, result, -⟩ <;> rw [result]
  · constructor
    · exact (length_addLinked store p parent justify).ge
    · intro q _
      exact property_addLinked HotstuffBlock.content (fun _ _ _ _ => rfl)
        store p parent justify q
    · intro q outside inside
      rw [length_addLinked] at inside
      omega
    · intro q linked
      rw [block_addLinked]
      split
      · rfl
      · exact linked
  · exact (Undisturbed.refl store).grown

end BlockStore

variable [Externals]

namespace HotstuffCore

/-- What the collector sees of a replica; the committed height is that of the
last executed block. -/
def collection (core : HotstuffCore) (pass : Option GcPass) :
    GarbageCollection BlockPtr :=
  core.store.collection pass (core.store.height core.bExec)

/-! ### Votes and proposals seen from the collector -/

theorem undisturbed_onReceiveVote (core : HotstuffCore)
    (cert : PartialCertificate) (p : BlockPtr) (voter : ReplicaID) :
    core.store.Undisturbed (core.onReceiveVote cert p voter).store ∧
      (core.onReceiveVote cert p voter).bExec = core.bExec := by
  have voted {extended : QuorumCertificate}
      (added : (core.block p).selfQc.addPartialCertificate voter cert =
        .ok extended) :
      core.store.Undisturbed (core.withVote p extended).store :=
    { tree := sameTree_withVote added
      gcList := rfl
      gcListBuffer := rfl
      hotstuffHeightToGc := rfl
      content := BlockStore.property_modifyBlock HotstuffBlock.content
        (.withSelfQc extended) (fun _ => rfl) core.store p }
  rcases core.onReceiveVote_cases cert p voter with
    ⟨message, -, result⟩ | ⟨extended, added, ⟨-, -, result⟩ | result⟩ <;>
    rw [result]
  · exact ⟨.refl core.store, rfl⟩
  · change core.store.Undisturbed
        ((core.withVote p extended).updateHqc p extended).store ∧
      ((core.withVote p extended).updateHqc p extended).bExec = core.bExec
    rw [updateHqc_store, updateHqc_bExec]
    exact ⟨voted added, rfl⟩
  · exact ⟨voted added, rfl⟩

theorem undisturbed_lockAndWrite (core : HotstuffCore) (blk2 blk1 : BlockPtr)
    (qc : QuorumCertificate) :
    core.store.Undisturbed ((core.updateHqc blk2 qc).lockAndWrite blk1).store ∧
      ((core.updateHqc blk2 qc).lockAndWrite blk1).bExec = core.bExec := by
  have written := BlockStore.undisturbed_writeToDisk
    ((core.updateHqc blk2 qc).store.height
      ((core.updateHqc blk2 qc).raisedLock blk1) + 1)
    (core.updateHqc blk2 qc).store
    ((core.updateHqc blk2 qc).raisedLock blk1)
  rw [updateHqc_store] at written
  refine ⟨?_, updateHqc_bExec core blk2 qc⟩
  unfold lockAndWrite writtenLock
  rw [updateHqc_store]
  exact written

omit [Externals] in
theorem undisturbed_commitBlocks (core : HotstuffCore)
    (blocks : List BlockPtr) :
    core.store.Undisturbed (blocks.foldl commitBlock core).store := by
  induction blocks generalizing core with
  | nil => exact .refl core.store
  | cons p blocks ih =>
      have decided : core.store.Undisturbed (core.commitBlock p).store :=
        BlockStore.undisturbed_modifyBlock core.store p (fun _ => rfl)
          fun _ => rfl
      exact decided.trans (ih _)

/-- An `update` leaves the collector alone, or it commits a block that is not
below the last executed one and asks for a collection. -/
theorem update_seen {core : HotstuffCore} (tree : core.store.WellFormed)
    (nblk : BlockPtr) :
    (core.store.Undisturbed (core.update nblk).store ∧
      (core.update nblk).bExec = core.bExec) ∨
    ∃ store blk, core.store.Undisturbed store ∧ core.store.Placed blk ∧
      core.store.height core.bExec ≤ core.store.height blk ∧
      (core.update nblk).bExec = blk ∧
      (core.update nblk).store =
        store.pruneBelowHeight (pruneHeight (store.height blk)) := by
  have outcome := update_result core nblk
  generalize core.update nblk = after at outcome ⊢
  cases outcome with
  | skip => exact .inl ⟨.refl core.store, rfl⟩
  | certificate =>
      rw [updateHqc_store, updateHqc_bExec]
      exact .inl ⟨.refl core.store, rfl⟩
  | lock => exact .inl (core.undisturbed_lockAndWrite _ _ _)
  | fail => exact .inl (core.undisturbed_lockAndWrite _ _ _)
  | @commit blk2 blk1 blk commitQueue _ _ _ _ names _ _ _ walked =>
      right
      have locked := (core.undisturbed_lockAndWrite blk2 blk1
        (core.block nblk).getJustifyQc).1
      have decided := undisturbed_commitBlocks
        ((core.updateHqc blk2 (core.block nblk).getJustifyQc).lockAndWrite blk1)
        commitQueue.reverse
      obtain ⟨chain, -, -⟩ := BlockStore.walk_cases walked
      have descends := tree.chain_height chain
      exact ⟨_, blk, locked.trans decided, (tree.justify_stored names).2.1,
        by omega, rfl, rfl⟩

/-- The collector sees nothing or one action, and no body is lost. -/
structure Seen (core after : HotstuffCore) (pass : Option GcPass) :
    Prop where
  grown : core.store.Grown after.store
  exec : after.bExec = core.bExec ∨ core.store.Placed after.bExec
  view : after.collection pass = core.collection pass ∨
    ∃ action, (core.collection pass).Enabled action ∧
      after.collection pass = (core.collection pass).next action

omit [Externals] in
theorem Seen.of_undisturbed {core after : HotstuffCore}
    (same : core.store.Undisturbed after.store)
    (sameExec : after.bExec = core.bExec) (pass : Option GcPass) :
    Seen core after pass where
  grown := same.grown
  exec := .inl sameExec
  view := by
    left
    rw [collection, sameExec, same.tree.height]
    exact same.collection pass _

theorem seen_update {core : HotstuffCore} (tree : core.store.WellFormed)
    (nblk : BlockPtr) (pass : Option GcPass) :
    Seen core (core.update nblk) pass := by
  rcases update_seen tree nblk with
    ⟨same, sameExec⟩ | ⟨store, blk, same, placed, higher, execEq, storeEq⟩
  · exact .of_undisturbed same sameExec pass
  · constructor
    · obtain ⟨length, content, fresh, linked⟩ := same.grown
      rw [storeEq]
      exact ⟨length, content, fresh, linked⟩
    · rw [execEq]
      exact .inr placed
    · right
      refine ⟨.commit (core.store.height blk), higher, ?_⟩
      rw [collection, storeEq, execEq]
      change { store.collection pass (store.height blk) with
        hotstuffHeightToGc := some (pruneHeight (store.height blk)) } = _
      rw [same.collection, same.tree.height]
      rfl

theorem seen_onReceiveProposal {core : HotstuffCore}
    (tree : core.store.WellFormed) (p : BlockPtr) (proposer : ReplicaID)
    (pass : Option GcPass) :
    Seen core (core.onReceiveProposal p proposer) pass := by
  rcases onReceiveProposal_cases tree p proposer with
    ⟨-, result⟩ | ⟨-, result⟩ <;> rw [result]
  · have voted : (core.castVote p proposer).store.WellFormed := tree
    obtain ⟨grown, exec, view⟩ := seen_update voted p pass
    exact ⟨grown, exec, view⟩
  · exact seen_update tree p pass

/-! ### New blocks seen from the collector -/

omit [Externals] in
theorem collection_allocated {core : HotstuffCore} {block : HotstuffBlock}
    (bound : core.bExec < core.store.heap.length)
    (noParent : block.parentBlockPtr = none) (low : block.blockHeight = 0)
    (pass : Option GcPass) :
    { core with store := (core.store.alloc block).1 }.collection pass =
      core.collection pass := by
  have committed : (core.store.alloc block).1.height core.bExec =
      core.store.height core.bExec := by
    rw [BlockStore.height, BlockStore.block_alloc, if_neg bound.ne]
    rfl
  change (core.store.alloc block).1.collection pass
    ((core.store.alloc block).1.height core.bExec) = core.collection pass
  rw [committed]
  exact core.store.collection_alloc noParent low pass _

omit [Externals] in
theorem seen_insertBlock {core : HotstuffCore} {p : BlockPtr}
    (other : core.bExec ≠ p) (bound : p < core.store.heap.length)
    (fresh : ¬ (core.block p).Linked)
    (intact : (core.block p).flushedFromMemory = false)
    (pass : Option GcPass) :
    Seen core { core with store := (core.store.insertBlock p).1 } pass where
  grown := core.store.grown_insertBlock p
  exec := .inl rfl
  view := by
    rcases core.store.insertBlock_cases p with
      ⟨parent, justify, -, -, result, -⟩ | ⟨-, result, -⟩ <;> rw [result]
    · right
      refine ⟨.insert p (core.store.height parent + 1), ?_, ?_⟩
      · exact eq_false_of_ne_true fresh
      · have committed : (core.store.addLinked p parent justify).height
            core.bExec = core.store.height core.bExec := by
          rw [BlockStore.height, BlockStore.block_addLinked_of_ne
            (Ne.symm other)]
          rfl
        change (core.store.addLinked p parent justify).collection pass
          ((core.store.addLinked p parent justify).height core.bExec) = _
        rw [committed]
        exact core.store.collection_addLinked parent justify bound intact
          pass _
    · exact .inl rfl

/-- A minted block is made and inserted in one event. -/
theorem seen_mintedStore {core : HotstuffCore}
    (bound : core.bExec < core.store.heap.length) (body : Body)
    (pass : Option GcPass) :
    Seen core { core with store := (core.mintedStore body).1 } pass := by
  let allocated : HotstuffCore :=
    { core with store := (core.store.alloc (core.minted body)).1 }
  have made : allocated.block core.store.heap.length = core.minted body := by
    rw [block, BlockStore.block_alloc, if_pos rfl]
  have inside : core.store.heap.length < allocated.store.heap.length := by
    simp [allocated, BlockStore.alloc]
  have unchanged : allocated.collection pass = core.collection pass :=
    collection_allocated bound rfl rfl pass
  have other : allocated.bExec ≠ core.store.heap.length := bound.ne
  have inserted : Seen allocated
      { core with store := (core.mintedStore body).1 } pass := by
    apply seen_insertBlock other inside
    · rw [made]
      exact Bool.false_ne_true
    · rw [made]
      rfl
  constructor
  · exact (core.store.grown_alloc rfl).trans inserted.grown
  · exact .inl rfl
  · rw [← unchanged]
    exact inserted.view

end HotstuffCore

end Hotstuff
