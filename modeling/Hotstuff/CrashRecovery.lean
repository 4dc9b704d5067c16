import Hotstuff.Durability
import Hotstuff.Reload

/-!
# Recovery after a crash

A replica may stop between any two of its effects.  The index transaction of a
commit comes after the locked chain was written, so everything in the index is
on disk.  This needs the lock to descend from the committed block, which is what
safety of the certified chain provides.  Decided blocks form a path from genesis
and justify blocks of that path, so reloading rebuilds the tree.
-/

namespace Hotstuff

section Recovery

variable [WireTypes] [Externals]

/-- The rows that an effect adds to the index. -/
def Effect.decidedEntries : Effect → List (Nat × Hash)
  | .commitTxn entries _ => entries
  | _ => []

/-- The rows of all completed transactions, oldest first. -/
def decidedEntries (trace : List Effect) : List (Nat × Hash) :=
  trace.reverse.flatMap Effect.decidedEntries

def decidedHashes (trace : List Effect) : List Hash :=
  (decidedEntries trace).map Prod.snd

/-- No index transaction is completed. -/
def Uncommitting (effects : List Effect) : Prop :=
  ∀ effect ∈ effects, effect.committedHead = none

omit [Externals] in
@[simp]
theorem decidedEntries_cons (effect : Effect) (older : List Effect) :
    decidedEntries (effect :: older) =
      decidedEntries older ++ effect.decidedEntries := by
  simp [decidedEntries]

omit [Externals] in
theorem decidedEntries_append {effects : List Effect}
    (uncommitting : Uncommitting effects) (older : List Effect) :
    decidedEntries (effects ++ older) = decidedEntries older := by
  induction effects with
  | nil => rfl
  | cons effect effects ih =>
      have silent := uncommitting effect (by simp)
      rw [List.cons_append, decidedEntries_cons,
        ih fun other member => uncommitting other (List.mem_cons_of_mem _ member)]
      cases effect <;> simp_all [Effect.decidedEntries, Effect.committedHead]

section Traces

variable (collisionFree : CollisionFree) (config : ReplicaConfig)

/-- A transaction extends the path of decided blocks by saved blocks and comes
with a certificate on its last block. -/
structure SoundCommit (older : List Effect) (entries : List (Nat × Hash))
    (qc : QuorumCertificateWire) : Prop where
  nonempty : entries ≠ []
  path : (headerForest collisionFree).Path qc.justify
    (decidedHashes older ++ entries.map Prod.snd)
  heights : ∀ entry ∈ entries,
    (headerForest collisionFree).height entry.2 = entry.1
  saved : ∀ entry ∈ entries, ∃ wireBlock, .saveBlock wireBlock ∈ older ∧
    hashHeader wireBlock.header = entry.2
  justified : ∀ header, hashHeader header ∈ entries.map Prod.snd →
    AncestorJustified collisionFree header
  verified : (QuorumCertificate.ofWire qc).verify config = .ok true

/-- All transactions of the trace are sound. -/
def Recoverable : List Effect → Prop
  | [] => True
  | .commitTxn entries qc :: older =>
      SoundCommit collisionFree config older entries qc ∧ Recoverable older
  | _ :: older => Recoverable older

variable {collisionFree config}

theorem Recoverable.of_append {effects older : List Effect}
    (recoverable : Recoverable collisionFree config (effects ++ older)) :
    Recoverable collisionFree config older := by
  induction effects with
  | nil => exact recoverable
  | cons effect effects ih =>
      cases effect with
      | commitTxn entries qc => exact ih recoverable.2
      | _ => exact ih recoverable

theorem Recoverable.append {effects older : List Effect}
    (recoverable : Recoverable collisionFree config older)
    (uncommitting : Uncommitting effects) :
    Recoverable collisionFree config (effects ++ older) := by
  induction effects with
  | nil => exact recoverable
  | cons effect effects ih =>
      have rest := ih fun other member =>
        uncommitting other (List.mem_cons_of_mem _ member)
      have silent := uncommitting effect (by simp)
      cases effect with
      | commitTxn entries qc => cases silent
      | _ => exact rest

omit [Externals] in
theorem files_ofTrace (trace : List Effect) :
    (Disk.ofTrace trace).files = trace.filterMap Effect.savedWire := by
  induction trace with
  | nil => rfl
  | cons effect older ih =>
      cases effect with
      | saveBlock wireBlock => exact congrArg (List.cons wireBlock) ih
      | _ => exact ih

/-- What the disk holds after a recoverable trace. -/
structure DiskSound (collisionFree : CollisionFree) (config : ReplicaConfig)
    (trace : List Effect) : Prop where
  index : (Disk.ofTrace trace).decidedHashIndex.entries = decidedEntries trace
  heights : ∀ entry ∈ decidedEntries trace,
    (headerForest collisionFree).height entry.2 = entry.1
  saved : ∀ entry ∈ decidedEntries trace,
    ∃ wireBlock ∈ trace.filterMap Effect.savedWire,
      hashHeader wireBlock.header = entry.2
  justified : ∀ header, hashHeader header ∈ decidedHashes trace →
    AncestorJustified collisionFree header
  top : (decidedEntries trace = [] ∧ Uncommitting trace) ∨
    ∃ qc, (Disk.ofTrace trace).qcOnTopBlock = some qc ∧
      decidedEntries trace ≠ [] ∧
      (headerForest collisionFree).Path qc.justify (decidedHashes trace) ∧
      (QuorumCertificate.ofWire qc).verify config = .ok true

/-- The heights along a path are ascending. -/
theorem ordered_of_path {top : Hash} {entries : List (Nat × Hash)}
    (path : (headerForest collisionFree).Path top (entries.map Prod.snd))
    (heights : ∀ entry ∈ entries,
      (headerForest collisionFree).height entry.2 = entry.1) :
    entries.map Prod.fst = List.range' 1 entries.length ∧
      entries.Pairwise fun first second => first.1 < second.1 := by
  have keys : entries.map Prod.fst = List.range' 1 entries.length := by
    have levels := path.heights
    rw [List.map_map, List.length_map] at levels
    rw [← levels]
    exact List.map_congr_left fun entry member => (heights entry member).symm
  refine ⟨keys, ?_⟩
  rw [← List.pairwise_map (f := Prod.fst) (R := (· < ·)), keys]
  exact List.pairwise_lt_range'

omit [Externals] in
/-- Effects other than transactions leave the index alone. -/
theorem Disk.ofTrace_append {effects : List Effect}
    (uncommitting : Uncommitting effects) (older : List Effect) :
    (Disk.ofTrace (effects ++ older)).decidedHashIndex =
        (Disk.ofTrace older).decidedHashIndex ∧
      (Disk.ofTrace (effects ++ older)).qcOnTopBlock =
        (Disk.ofTrace older).qcOnTopBlock := by
  induction effects with
  | nil => exact ⟨rfl, rfl⟩
  | cons effect effects ih =>
      have rest := ih fun other member =>
        uncommitting other (List.mem_cons_of_mem _ member)
      have silent := uncommitting effect (by simp)
      cases effect with
      | commitTxn => cases silent
      | _ => exact rest

/-- Effects other than transactions leave the decided blocks alone. -/
theorem DiskSound.cons {effect : Effect} {older : List Effect}
    (sound : DiskSound collisionFree config older)
    (uncommitting : effect.committedHead = none) :
    DiskSound collisionFree config (effect :: older) := by
  have single : Uncommitting [effect] :=
    List.forall_mem_singleton.mpr uncommitting
  have entries := decidedEntries_append single older
  have same := Disk.ofTrace_append single older
  rw [List.singleton_append] at entries same
  constructor
  · rw [same.1, entries]
    exact sound.index
  · rw [entries]
    exact sound.heights
  · rw [entries]
    intro entry member
    obtain ⟨wireBlock, found, hashEq⟩ := sound.saved entry member
    refine ⟨wireBlock, ?_, hashEq⟩
    obtain ⟨saving, savingMem, isSaved⟩ := List.mem_filterMap.mp found
    exact List.mem_filterMap.mpr
      ⟨saving, List.mem_cons_of_mem _ savingMem, isSaved⟩
  · rw [decidedHashes, entries]
    exact sound.justified
  · rw [same.2, decidedHashes, entries]
    exact sound.top.imp_left fun ⟨noEntries, rest⟩ =>
      ⟨noEntries, List.forall_mem_cons.mpr ⟨uncommitting, rest⟩⟩

theorem DiskSound.commit {older : List Effect} {entries : List (Nat × Hash)}
    {qc : QuorumCertificateWire}
    (sound : DiskSound collisionFree config older)
    (commit : SoundCommit collisionFree config older entries qc) :
    DiskSound collisionFree config (.commitTxn entries qc :: older) := by
  have grown : decidedEntries (.commitTxn entries qc :: older) =
      decidedEntries older ++ entries := decidedEntries_cons _ _
  have hashes : decidedHashes (.commitTxn entries qc :: older) =
      decidedHashes older ++ entries.map Prod.snd := by
    rw [decidedHashes, grown, List.map_append, decidedHashes]
  have heights : ∀ entry ∈ decidedEntries older ++ entries,
      (headerForest collisionFree).height entry.2 = entry.1 := fun entry member =>
    (List.mem_append.mp member).elim (sound.heights entry)
      (commit.heights entry)
  have path := commit.path
  rw [← hashes, decidedHashes, grown] at path
  constructor
  · rw [grown, ← sound.index]
    refine OrderedMap.entries_foldl_put
      (Disk.ofTrace older).decidedHashIndex entries ?_
    rw [sound.index]
    exact (ordered_of_path path heights).2
  · rw [grown]
    exact heights
  · rw [grown]
    intro entry member
    rcases List.mem_append.mp member with old | new
    · exact sound.saved entry old
    · obtain ⟨wireBlock, found, hashEq⟩ := commit.saved entry new
      exact ⟨wireBlock, List.mem_filterMap.mpr
        ⟨_, List.mem_cons_of_mem _ found, rfl⟩, hashEq⟩
  · rw [hashes]
    intro header member
    exact (List.mem_append.mp member).elim (sound.justified header)
      (commit.justified header)
  · refine .inr ⟨qc, rfl, ?_, ?_, commit.verified⟩
    · rw [grown]
      simp [commit.nonempty]
    · rw [decidedHashes, grown]
      exact path

theorem Recoverable.diskSound {trace : List Effect}
    (recoverable : Recoverable collisionFree config trace) :
    DiskSound collisionFree config trace := by
  induction trace with
  | nil =>
      exact ⟨rfl, by simp [decidedEntries], by simp [decidedEntries],
        by simp [decidedHashes, decidedEntries],
        .inl ⟨rfl, by simp [Uncommitting]⟩⟩
  | cons effect older ih =>
      cases effect with
      | commitTxn entries qc => exact (ih recoverable.2).commit recoverable.1
      | _ => exact (ih recoverable).cons rfl

/-- After a completed transaction the top of the decided path is certified. -/
theorem DiskSound.committed_top {trace : List Effect}
    (sound : DiskSound collisionFree config trace)
    (committed : ∃ entries qc, .commitTxn entries qc ∈ trace) :
    ∃ qc, (Disk.ofTrace trace).qcOnTopBlock = some qc ∧
      decidedHashes trace ≠ [] ∧
      (headerForest collisionFree).Path qc.justify (decidedHashes trace) ∧
      (QuorumCertificate.ofWire qc).verify config = .ok true := by
  rcases sound.top with ⟨-, uncommitting⟩ | ⟨qc, top, nonempty, rest⟩
  · obtain ⟨entries, qc, member⟩ := committed
    cases uncommitting _ member
  · exact ⟨qc, top, by simpa [decidedHashes] using nonempty, rest⟩

/-- A recoverable trace with a completed transaction can be reloaded. -/
theorem Recoverable.reload {trace : List Effect}
    (recoverable : Recoverable collisionFree config trace)
    (committed : ∃ entries qc, .commitTxn entries qc ∈ trace)
    (selfId : ReplicaID) (secretKey : SecretKey) :
    ∃ reloaded, (HotstuffCore.init selfId config
          secretKey).reloadDecidedBlocks (.ofTrace trace) =
        .ok (reloaded, (decidedHashes trace).length) ∧
      Reloaded reloaded.store (decidedHashes trace) ∧
      reloaded.SettledOn (decidedHashes trace).length ∧
      reloaded.config = config := by
  have sound := recoverable.diskSound
  obtain ⟨qc, top, nonempty, path, verified⟩ := sound.committed_top committed
  refine reloadDecidedBlocks_of_path selfId secretKey
    (congrArg (List.map Prod.snd) sound.index) top nonempty path verified ?_
  intro hash member
  obtain ⟨entry, entryMem, rfl⟩ := List.mem_map.mp member
  obtain ⟨wireBlock, saved, hashEq⟩ := sound.saved entry entryMem
  rw [← files_ofTrace] at saved
  obtain ⟨loaded, found, loadedHash⟩ := Disk.exists_loadBlock saved
  rw [hashEq] at found loadedHash
  exact ⟨loaded, found, loadedHash, sound.justified _ (loadedHash.symm ▸ member)⟩

end Traces

/-! ### The trace of a replica -/

namespace HotstuffCore

variable {collisionFree : CollisionFree}

/-- The lock is genesis or certified by a block that the replica holds. -/
def LockNamed (core : HotstuffCore) : Prop :=
  core.bLock = 0 ∨ ∃ p, p ≠ 0 ∧ p < core.store.heap.length ∧
    (core.block p).wireBlock.header.qc.justify = core.store.hash core.bLock

theorem LockNamed.wrote {core after : HotstuffCore} {lock : BlockPtr}
    (named : core.LockNamed) (valid : core.Valid collisionFree)
    (wrote : Wrote core after lock) : after.LockNamed := by
  have headers (p : BlockPtr) : (after.block p).wireBlock.header =
      (core.block p).wireBlock.header :=
    congrArg HotstuffBlock.Links.header (wrote.tree.links p)
  simp only [LockNamed, headers, wrote.bLock, wrote.tree.length,
    wrote.tree.hash]
  rcases wrote.choice with same | ⟨p, names⟩
  · rw [same]
    exact named
  · have linked := valid.tree.linked_of_justify names
    have notGenesis := valid.tree.ne_zero_of_linked linked
    have bound := BlockStore.WellFormed.lt_of_linked linked
    refine .inr ⟨p, notGenesis, bound, ?_⟩
    rw [(valid.tree.justify_stored names).2.2]
    exact (valid.tree.getJustifyHash_eq notGenesis bound).symm

theorem LockNamed.step {core : HotstuffCore} (named : core.LockNamed)
    (valid : core.Valid collisionFree) {event : Event}
    (enabled : core.Enabled event) : (core.step event).LockNamed := by
  rcases valid.disk_step enabled with idle | ⟨lock, wrote⟩
  · refine named.imp (fun genesis => idle.bLock.trans genesis) ?_
    rintro ⟨p, notGenesis, bound, justifies⟩
    refine ⟨p, notGenesis, bound.trans_le idle.longer.length, ?_⟩
    rw [HotstuffCore.block, (idle.longer.identity p bound).2.1, idle.bLock,
      idle.longer.hash valid.lockPlaced]
    exact justifies
  · exact named.wrote valid wrote

/-- Every certificate that the replica holds, if it is not below the last
executed block, is on a descendant of that block. -/
def CertifiedAboveExec (collisionFree : CollisionFree)
    (core : HotstuffCore) : Prop :=
  ∀ p, p ≠ 0 → p < core.store.heap.length →
    core.store.height core.bExec ≤ (headerForest collisionFree).height
      (core.block p).wireBlock.header.qc.justify →
    (headerForest collisionFree).Ancestor (core.store.hash core.bExec)
      (core.block p).wireBlock.header.qc.justify

/-- The index holds the committed blocks and can be reloaded. -/
structure TraceSound (collisionFree : CollisionFree) (core : HotstuffCore) :
    Prop where
  recoverable : Recoverable collisionFree core.config core.trace
  decided : decidedHashes core.trace = core.committed

/-- Effects that neither decide nor commit. -/
def Quiet (effects : List Effect) : Prop :=
  ∀ effect ∈ effects, effect.committedHead = none ∧ effect.appliedHash = none

theorem TraceSound.quiet {core after : HotstuffCore}
    (sound : core.TraceSound collisionFree)
    (sameConfig : after.config = core.config) {effects : List Effect}
    (traceEq : after.trace = effects ++ core.trace) (quiet : Quiet effects) :
    after.TraceSound collisionFree := by
  have uncommitting : Uncommitting effects :=
    fun effect member => (quiet effect member).1
  have noneApplied : effects.filterMap Effect.appliedHash = [] :=
    List.filterMap_eq_nil_iff.mpr fun effect member => (quiet effect member).2
  constructor
  · rw [sameConfig, traceEq]
    exact sound.recoverable.append uncommitting
  · rw [traceEq, decidedHashes, decidedEntries_append uncommitting, committed,
      traceEq, List.filterMap_append, noneApplied]
    exact sound.decided

/-- Steps without a commit keep the index as it is. -/
theorem TraceSound.calm {core after : HotstuffCore}
    (sound : core.TraceSound collisionFree)
    (sameConfig : after.config = core.config) (calm : Calm core after) :
    after.TraceSound collisionFree := by
  obtain ⟨effects, traceEq, silent⟩ := calm
  apply sound.quiet sameConfig traceEq
  intro effect member
  obtain ⟨notApplied, noTxn⟩ := silent effect member
  cases effect with
  | applyBlock => cases notApplied
  | commitTxn => cases noTxn
  | _ => exact ⟨rfl, rfl⟩

theorem TraceSound.locked {core : HotstuffCore}
    (sound : core.TraceSound collisionFree) (blk2 blk1 : BlockPtr)
    (qc : QuorumCertificate) :
    ((core.updateHqc blk2 qc).lockAndWrite blk1).TraceSound collisionFree :=
  sound.calm (internal_updateHqc core blk2 qc).config
    ((calm_updateHqc core blk2 qc).trans (calm_lockAndWrite _ blk1))

omit [Externals] in
theorem uncommitting_commitEffects (core : HotstuffCore)
    (blocks : List BlockPtr) :
    Uncommitting (core.commitEffects blocks).reverse := by
  intro effect member
  obtain ⟨p, -, rfl | rfl⟩ := mem_commitEffects (List.mem_reverse.mp member)
  · rfl
  · rfl

section Commit

variable {core : HotstuffCore} (sound : core.TraceSound collisionFree)
  (valid : core.Valid collisionFree) {commitQueue : List BlockPtr}
  {blk : BlockPtr} {qc : QuorumCertificate} (nonempty : commitQueue ≠ [])
  (chain : core.store.Chain blk commitQueue core.bExec)
  (certifies : core.Certifies qc blk)
  (saved : ∀ p ∈ commitQueue, core.Saved (core.store.hash p))
  (justified : ∀ p ∈ commitQueue,
    AncestorJustified collisionFree (core.block p).wireBlock.header)

include sound valid nonempty chain certifies saved justified

/-- A transaction on a queue of saved blocks is sound. -/
theorem TraceSound.soundCommit :
    SoundCommit collisionFree core.config
      ((core.commitEffects commitQueue.reverse).reverse ++ core.trace)
      (commitQueue.reverse.map fun p =>
        (core.store.height p, core.store.hash p)) qc.serialize := by
  have queuedLinked {p : BlockPtr} (queued : p ∈ commitQueue.reverse) :
      (core.store.block p).Linked :=
    chain.linked_of_mem (List.mem_reverse.mp queued)
  have hashes : (commitQueue.reverse.map fun p =>
      (core.store.height p, core.store.hash p)).map Prod.snd =
        commitQueue.reverse.map core.store.hash := by
    simp
  constructor
  · simpa using nonempty
  · rw [decidedHashes, decidedEntries_append (core.uncommitting_commitEffects _),
      show (decidedEntries core.trace).map Prod.snd = core.committed
        from sound.decided, hashes,
      show qc.serialize.justify = core.store.hash blk from certifies.objHash]
    exact valid.tree.chain_path collisionFree chain valid.committedPath
  · intro entry member
    obtain ⟨p, queued, rfl⟩ := List.mem_map.mp member
    exact valid.tree.height_eq collisionFree (.inr (queuedLinked queued))
  · intro entry member
    obtain ⟨p, queued, rfl⟩ := List.mem_map.mp member
    obtain ⟨wireBlock, found, hashEq⟩ := saved p (List.mem_reverse.mp queued)
    exact ⟨wireBlock, List.mem_append_right _ (mem_savedWires.mp found), hashEq⟩
  · intro header member
    rw [hashes] at member
    obtain ⟨p, queued, hashEq⟩ := List.mem_map.mp member
    have linked := queuedLinked queued
    rw [(valid.tree.hashed p (valid.tree.ne_zero_of_linked linked)
      (BlockStore.WellFormed.lt_of_linked linked)).1] at hashEq
    rw [← collisionFree.injective hashEq]
    exact justified p (List.mem_reverse.mp queued)
  · rw [QuorumCertificate.ofWire_serialize certifies.small]
    exact certifies.verified

theorem TraceSound.commit :
    (core.commit commitQueue blk qc).TraceSound collisionFree := by
  obtain ⟨pruneHeight, committedHeight, result⟩ := core.commit_eq commitQueue
    blk qc (valid.tree.chain_nodup chain) fun p member =>
      BlockStore.WellFormed.lt_of_linked (chain.linked_of_mem member)
  have commit := sound.soundCommit valid nonempty chain certifies saved
    justified
  rw [result]
  constructor
  · exact ⟨commit, sound.recoverable.append (core.uncommitting_commitEffects _)⟩
  · have decided := sound.decided
    rw [decidedHashes] at decided
    rw [committed]
    dsimp only
    rw [List.filterMap_cons_none rfl, List.filterMap_cons_none rfl,
      List.filterMap_append, List.filterMap_reverse, appliedHash_commitEffects,
      decidedHashes, decidedEntries_cons, decidedEntries_cons,
      decidedEntries_append (core.uncommitting_commitEffects _)]
    simp [Effect.decidedEntries, decided, committed, Function.comp_def]

end Commit

section Events

variable {core : HotstuffCore} (sound : core.TraceSound collisionFree)
  (valid : core.Valid collisionFree) (onDisk : core.OnDisk)
  (named : core.LockNamed)
  (held : ∀ p, p ≠ 0 → p < core.store.heap.length →
    AncestorJustified collisionFree (core.block p).wireBlock.header)

include sound valid onDisk named held

/-- The lock descends from the block to commit, so all committed blocks are on
disk. -/
theorem TraceSound.commit_locked {commitQueue : List BlockPtr} {blk : BlockPtr}
    {qc : QuorumCertificate} (undecided : (core.block blk).decided = false)
    (placed : core.store.Placed blk) (certifies : core.Certifies qc blk)
    (chain : core.store.Chain blk commitQueue core.bExec)
    (below : core.store.height blk < core.store.height core.bLock)
    (above : (core.commit commitQueue blk qc).CertifiedAboveExec
      collisionFree) :
    (core.commit commitQueue blk qc).TraceSound collisionFree := by
  have tree := valid.tree
  have linked {p : BlockPtr} (queued : p ∈ commitQueue) :=
    chain.linked_of_mem queued
  have nonempty : commitQueue ≠ [] := by
    rintro rfl
    cases chain
    have decided := (valid.decidedIff core.bExec
      (tree.lt_of_placed placed)).mpr ⟨[], .here _⟩
    rw [decided] at undecided
    cases undecided
  have descends : (headerForest collisionFree).Ancestor (core.store.hash blk)
      (core.store.hash core.bLock) := by
    have lockHeight := tree.height_eq collisionFree valid.lockPlaced
    rcases named with genesis | ⟨p, notGenesis, bound, justifies⟩
    · rw [genesis, tree.genesis_height] at below
      omega
    · have nodup := tree.chain_nodup chain
      have queueBound (p : BlockPtr) (queued : p ∈ commitQueue) :=
        BlockStore.WellFormed.lt_of_linked (linked queued)
      have same := core.sameTree_commit commitQueue blk qc nodup queueBound
      obtain ⟨_, _, result⟩ := core.commit_eq commitQueue blk qc nodup
        queueBound
      have executed : (core.commit commitQueue blk qc).bExec = blk := by
        rw [result]
      have header : ((core.commit commitQueue blk qc).block
          p).wireBlock.header = (core.block p).wireBlock.header :=
        congrArg HotstuffBlock.Links.header (same.links p)
      have descends := above p notGenesis (same.length ▸ bound)
      rw [executed, header, justifies, same.height, same.hash] at descends
      exact descends (lockHeight ▸ below.le)
  refine sound.commit valid nonempty chain certifies ?_ ?_
  · intro p queued
    obtain ⟨_, _, upper, -⟩ := chain.of_mem queued
    refine onDisk.saved_ancestor valid
      ((tree.chain_ancestor collisionFree upper).trans descends) ?_
    rw [(tree.hashed p (tree.ne_zero_of_linked (linked queued))
      (BlockStore.WellFormed.lt_of_linked (linked queued))).1]
    exact collisionFree.ne_zero _
  · intro p queued
    exact held p (tree.ne_zero_of_linked (linked queued))
      (BlockStore.WellFormed.lt_of_linked (linked queued))

/-- `update` moves the lock above the block to commit before it commits. -/
theorem TraceSound.update {nblk : BlockPtr}
    (above : (core.update nblk).CertifiedAboveExec collisionFree) :
    (core.update nblk).TraceSound collisionFree := by
  have outcome := update_result core nblk
  generalize core.update nblk = after at outcome above ⊢
  cases outcome with
  | skip => exact sound
  | certificate =>
      exact sound.calm (internal_updateHqc core _ _).config
        (calm_updateHqc core _ _)
  | lock => exact sound.locked _ _ _
  | @fail blk2 blk1 =>
      have locked := sound.locked blk2 blk1 (core.block nblk).getJustifyQc
      exact ⟨locked.recoverable, locked.decided⟩
  | @commit blk2 blk1 blk commitQueue names2 _ names1 _ names open0 parent2
      parent1 walked =>
      have tree := valid.tree
      have wrote := valid.wrote_lockAndWrite names1
        (core.block nblk).getJustifyQc
      have same := wrote.tree
      obtain ⟨chain, -, -⟩ := BlockStore.walk_cases walked
      obtain ⟨-, placed, certifies⟩ := valid.anchored.certifies_justify names
      have raised := (core.raisedLock_cases blk1).2.1
      have parentHeight := (tree.linked blk1 blk parent1).heightEq
      refine (sound.locked blk2 blk1 _).commit_locked
        (valid.lock_justify names2 names1) (onDisk.wrote valid wrote)
        (named.wrote valid wrote) ?_ ?_ ((same.placed blk).mpr placed)
        ⟨certifies.objHash.trans (same.hash blk).symm, certifies.small, ?_⟩
        ?_ ?_ above
      · intro p notGenesis bound
        have header : (((core.updateHqc blk2
            (core.block nblk).getJustifyQc).lockAndWrite blk1).block
              p).wireBlock.header = (core.block p).wireBlock.header :=
          congrArg HotstuffBlock.Links.header (same.links p)
        rw [header]
        exact held p notGenesis (same.length ▸ bound)
      · have flag := property_lockAndWrite HotstuffBlock.decided (fun _ => rfl)
          (core.updateHqc blk2 (core.block nblk).getJustifyQc) blk1 blk
        rw [updateHqc_store] at flag
        exact flag.trans open0
      · have sameConfig : ((core.updateHqc blk2
            (core.block nblk).getJustifyQc).lockAndWrite blk1).config =
              core.config := (internal_updateHqc core blk2 _).config
        rw [sameConfig]
        exact certifies.verified
      · rw [tree.chain_extends same.extends placed]
        change core.store.Chain blk commitQueue (core.updateHqc blk2 _).bExec
        rw [updateHqc_bExec]
        exact chain
      · rw [same.height, wrote.bLock, same.height]
        omega

theorem TraceSound.step {event : Event} (enabled : core.Enabled event)
    (above : (core.step event).CertifiedAboveExec collisionFree) :
    (core.step event).TraceSound collisionFree := by
  cases event with
  | receiveBlock => exact ⟨sound.recoverable, sound.decided⟩
  | insertBlock => exact ⟨sound.recoverable, sound.decided⟩
  | vote cert p voter =>
      exact sound.calm (internal_onReceiveVote core cert p voter).config
        (calm_onReceiveVote core cert p voter).1
  | selfVote p =>
      exact sound.calm (internal_onReceiveVote core _ p core.selfId).config
        (calm_onReceiveVote core _ p core.selfId).1
  | proposal p proposer =>
      have placed := valid.anchored.placed_of_height enabled.2.1
      rw [HotstuffCore.step] at above ⊢
      rcases onReceiveProposal_cases valid.tree p proposer with
        ⟨-, result⟩ | ⟨-, result⟩
      · rw [result] at above ⊢
        have voted : (core.castVote p proposer).TraceSound collisionFree :=
          sound.calm rfl ⟨[_], rfl, List.forall_mem_singleton.mpr ⟨rfl, rfl⟩⟩
        exact voted.update (valid.castVote placed proposer)
          ⟨onDisk.genesis, onDisk.placed, onDisk.closed, onDisk.lock,
            onDisk.saved⟩ named held above
      · rw [result] at above ⊢
        exact sound.update valid onDisk named held above
  | doPropose body | doEmptyPropose body =>
      have sends := valid.anchored.sends_proposeBody
      exact sound.calm (sends _ body).config (calm_proposeBody core _ body).1
  | garbageCollect => exact ⟨sound.recoverable, sound.decided⟩

end Events

end HotstuffCore

/-! ### Blocks keep their place -/

variable {collisionFree : CollisionFree}

/-- The assumptions on the rest of the system: received blocks justify
ancestors, and the certified blocks at or above the last executed block descend
from it. -/
structure HotstuffCore.SafeEvent (collisionFree : CollisionFree)
    (core : HotstuffCore) (event : HotstuffCore.Event) : Prop where
  received : ∀ wireBlock source, event = .receiveBlock wireBlock source →
    AncestorJustified collisionFree wireBlock.header
  above : (core.step event).CertifiedAboveExec collisionFree

variable {selfId : ReplicaID} {config : ReplicaConfig} {secretKey : SecretKey}

end Recovery

/-! ### A replica that commits and stops -/

namespace Symbolic.Crash

open scoped Symbolic
open Fork

/-- The headers of a chain of four blocks. -/
def headers : List HotstuffBlockHeader :=
  [b1.header, b2.header, b3.header, b4.header]

/-- After the event the replica holds blocks of the chain only, and has executed
at most the first one. -/
def OnChain (core : HotstuffCore) (event : HotstuffCore.Event) : Prop :=
  (∀ p ∈ List.range (core.step event).store.heap.length, p ≠ 0 →
    ((core.step event).block p).wireBlock.header ∈ headers) ∧
  ((core.step event).store.hash (core.step event).bExec = zeroHash ∨
    (core.step event).store.hash (core.step event).bExec =
        hashHeader b1.header ∧
      (core.step event).store.height (core.step event).bExec = 1) ∧
  ∀ wireBlock ∈ core.newBlocks event, wireBlock.header ∈ headers

instance decidableOnChain (core : HotstuffCore)
    (event : HotstuffCore.Event) : Decidable (OnChain core event) :=
  inferInstanceAs (Decidable (_ ∧ _ ∧ _))

theorem ancestorJustified_headers {header : HotstuffBlockHeader}
    (member : header ∈ headers) : AncestorJustified collisionFree header := by
  have level1 : (headerForest collisionFree).Level (hashHeader b1.header) 1 :=
    Pipeline.level_block .root _ _
  have level2 : (headerForest collisionFree).Level (hashHeader b2.header) 2 :=
    Pipeline.level_block level1 _ _
  have level3 : (headerForest collisionFree).Level (hashHeader b3.header) 3 :=
    Pipeline.level_block level2 _ _
  simp only [headers, List.mem_cons, List.not_mem_nil, or_false] at member
  rcases member with rfl | rfl | rfl | rfl
  · exact ⟨.root, .refl _⟩
  · exact ⟨⟨1, level1⟩, .refl _⟩
  · exact ⟨⟨2, level2⟩, .refl _⟩
  · exact ⟨⟨3, level3⟩, .refl _⟩

/-- The justify blocks of the chain are genesis or descend from `b1`. -/
theorem descends_headers {header : HotstuffBlockHeader}
    (member : header ∈ headers) :
    header.qc.justify = zeroHash ∨
      (headerForest collisionFree).Ancestor (hashHeader b1.header)
        header.qc.justify := by
  have edge (wireBlock : HotstuffBlockWire) :
      (headerForest collisionFree).Ancestor (hashHeader wireBlock.header)
        (hashHeader (childOf wireBlock).header) :=
    .of_parent (headerForest_parent collisionFree _)
  simp only [headers, List.mem_cons, List.not_mem_nil, or_false] at member
  rcases member with rfl | rfl | rfl | rfl
  · exact .inl rfl
  · exact .inr (.refl _)
  · exact .inr (edge b1)
  · exact .inr ((edge b1).trans (edge b2))

theorem OnChain.safe (core : HotstuffCore) (event : HotstuffCore.Event)
    (onChain : OnChain core event) :
    core.SafeEvent collisionFree event where
  received := by
    rintro wireBlock source rfl
    exact ancestorJustified_headers
      (onChain.2.2 wireBlock (List.mem_singleton_self _))
  above := by
    intro p notGenesis bound high
    have member := onChain.1 p (List.mem_range.mpr bound) notGenesis
    have justified := ancestorJustified_headers member
    rcases onChain.2.1 with genesis | ⟨first, height⟩
    · obtain ⟨level, chain⟩ := justified.ancestor.rooted justified.rooted
      rw [genesis]
      exact chain.ancestor_root
    · rw [first]
      rcases descends_headers member with zero | descends
      · rw [zero, height] at high
        exact (Nat.not_succ_le_zero 0
          (high.trans_eq (headerForest collisionFree).height_root)).elim
      · exact descends

/-- Replica `0` processes the chain and commits `b1`. -/
def events : List HotstuffCore.Event :=
  ([b1, b2, b3, b4].zipIdx 1).flatMap fun (wireBlock, p) =>
    [.receiveBlock wireBlock 3, .insertBlock p, .proposal p 3]

def final : HotstuffCore :=
  (replicaSystem 0 fourReplicas (0 : Nat)).run
    (.init 0 fourReplicas (0 : Nat)) events

theorem reachable_final :
    ((replicaSystem 0 fourReplicas (0 : Nat)).restrict
      (HotstuffCore.SafeEvent collisionFree)).Reachable final := by
  have reachable : ((replicaSystem 0 fourReplicas (0 : Nat)).restrict
      OnChain).Reachable final := by
    refine .run (.initial rfl) ?_
    decide +kernel
  exact reachable.weaken OnChain.safe

end Symbolic.Crash

end Hotstuff
