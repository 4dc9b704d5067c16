import Hotstuff.CertifiedChain

/-!
# Reloading decided blocks

What survives a stop of the process are the files of saved blocks and the index
of decided blocks, an LMDB table from heights to hashes with the certificate on
the top block.  `reload_decided_blocks` rebuilds the block store from them.  It
succeeds when the index holds a path of the forest of headers whose blocks are
all saved and justify ancestors.
-/

namespace Hotstuff

variable [WireTypes] [Externals]

/-- The persistent storage of a replica.  Keys of the index are big-endian
heights, so its cursor runs through them in ascending order. -/
structure Disk where
  /-- newest first -/
  files : List HotstuffBlockWire
  decidedHashIndex : OrderedMap Hash
  qcOnTopBlock : Option QuorumCertificateWire

namespace Disk

def empty : Disk where
  files := []
  decidedHashIndex := .empty
  qcOnTopBlock := none

/-- What an effect changes on disk.  Files are named by the header hash; a
transaction is atomic. -/
def write (disk : Disk) : Effect → Disk
  | .saveBlock wireBlock => { disk with files := wireBlock :: disk.files }
  | .commitTxn entries qc =>
      { disk with
        decidedHashIndex := entries.foldl
          (fun index entry => index.put entry.1 entry.2) disk.decidedHashIndex
        qcOnTopBlock := some qc }
  | _ => disk

/-- The disk after the given effects, newest first. -/
def ofTrace (trace : List Effect) : Disk :=
  trace.foldr (fun effect disk => disk.write effect) empty

def loadBlock (disk : Disk) (hash : Hash) : Option HotstuffBlockWire :=
  disk.files.find? fun wireBlock => hashHeader wireBlock.header = hash

theorem exists_loadBlock {disk : Disk} {wireBlock : HotstuffBlockWire}
    (member : wireBlock ∈ disk.files) :
    ∃ loaded, disk.loadBlock (hashHeader wireBlock.header) = some loaded ∧
      hashHeader loaded.header = hashHeader wireBlock.header := by
  unfold loadBlock
  cases found : disk.files.find? _ with
  | none => exact (List.find?_eq_none.mp found wireBlock member (by simp)).elim
  | some loaded => exact ⟨loaded, rfl, by simpa using List.find?_some found⟩

def loadDecidedBlock (disk : Disk) (hash : Hash) :
    Except String HotstuffBlock :=
  match disk.loadBlock hash with
  | none => .error "failed to load an expected block!"
  | some wireBlock => .ok (.ofDisk wireBlock)

def getHighestQc (disk : Disk) : Except String QuorumCertificate :=
  match disk.qcOnTopBlock with
  | none => .error "failed to get highest qc when loading from db"
  | some qc => .ok (.ofWire qc)

/-- One round of the loop in `reload_decided_blocks`: load a block and insert
it.  The second component is the height of the last block. -/
def reloadBlock (disk : Disk) (loaded : BlockStore × Nat) (hash : Hash) :
    Except String (BlockStore × Nat) := do
  let block ← disk.loadDecidedBlock hash
  let allocated := loaded.1.alloc block
  let inserted := allocated.1.insertBlock allocated.2
  if inserted.2.any then
    .error "unable to properly load data into block store"
  else .ok (inserted.1, inserted.1.height allocated.2)

end Disk

namespace HotstuffCore

def findBlockByHash (core : HotstuffCore) (hash : Hash) :
    Except String BlockPtr :=
  match core.store.getBlock hash with
  | none => .error "Failed to find block during initialization"
  | some p => .ok p

def reloadStateFromIndex (core : HotstuffCore) (disk : Disk) :
    Except String HotstuffCore := do
  let highestQc ← disk.getHighestQc
  let highestBlock ← core.findBlockByHash highestQc.objHash
  .ok { core.updateHqc highestBlock highestQc with
    vheight := core.store.height highestBlock % 2 ^ 32
    bExec := highestBlock
    bLock := highestBlock }

/-- The reloaded core and the highest decided height. -/
def reloadDecidedBlocks (core : HotstuffCore) (disk : Disk) :
    Except String (HotstuffCore × Nat) := do
  let loaded ← (disk.decidedHashIndex.entries.map Prod.snd).foldlM
    disk.reloadBlock (core.store, 0)
  let reloaded ← { core with store := loaded.1 }.reloadStateFromIndex disk
  .ok (reloaded, loaded.2)

end HotstuffCore

/-! ### Reloading a path -/

variable {collisionFree : CollisionFree}

/-- The block store that holds exactly the given hashes, in this order. -/
structure Reloaded (store : BlockStore) (hashes : List Hash) : Prop where
  tree : store.WellFormed
  objects : (List.range store.heap.length).map store.hash = zeroHash :: hashes
  inTree : ∀ p < store.heap.length, store.Stored p ∧ store.Placed p

theorem Reloaded.init : Reloaded .init [] where
  tree := BlockStore.wellFormed_init
  objects := rfl
  inTree := by
    intro p bound
    obtain rfl : p = 0 := Nat.lt_one_iff.mp bound
    exact ⟨BlockStore.wellFormed_init.genesis_stored, .inl rfl⟩

section Path

variable {store : BlockStore} {hashes : List Hash}
  (reloaded : Reloaded store hashes)

include reloaded

theorem Reloaded.length : store.heap.length = hashes.length + 1 := by
  have lengths := congrArg List.length reloaded.objects
  simpa using lengths

theorem Reloaded.getBlock_isSome_iff {hash : Hash} :
    (store.getBlock hash).isSome ↔ hash = zeroHash ∨ hash ∈ hashes := by
  have object : (hash = zeroHash ∨ hash ∈ hashes) ↔
      ∃ p < store.heap.length, store.hash p = hash := by
    rw [← List.mem_cons, ← reloaded.objects]
    simp
  rw [object, Option.isSome_iff_exists]
  constructor
  · rintro ⟨p, found⟩
    obtain ⟨-, placed, hashEq⟩ := reloaded.tree.stored_of_getBlock found
    exact ⟨p, reloaded.tree.lt_of_placed placed, hashEq⟩
  · rintro ⟨p, bound, rfl⟩
    exact ⟨p, (reloaded.inTree p bound).1⟩

theorem Reloaded.append {after : BlockStore} {wireBlock : HotstuffBlockWire}
    (appended : store.Appended after wireBlock)
    (absent : store.getBlock (hashHeader wireBlock.header) = none) :
    Reloaded after (hashes ++ [hashHeader wireBlock.header]) where
  tree := appended.tree
  objects := by
    rw [appended.length, List.range_succ, List.map_append, List.map_singleton,
      appended.hash, ← List.cons_append, ← reloaded.objects]
    congr 1
    refine List.map_congr_left fun p member => ?_
    exact (appended.longer.identity p (List.mem_range.mp member)).1
  inTree := by
    intro p bound
    rw [appended.length] at bound
    rcases Nat.lt_or_eq_of_le (Nat.le_of_lt_succ bound) with old | rfl
    · obtain ⟨stored, placed⟩ := reloaded.inTree p old
      exact ⟨appended.longer.stored placed stored,
        appended.longer.placed placed⟩
    · obtain ⟨parent, edge, -⟩ := appended.parent
      exact ⟨appended.stored absent, .inr (by rw [HotstuffBlock.Linked, edge]; rfl)⟩

/-- A child of the end of the path is not in the store yet. -/
theorem Reloaded.getBlock_child {header : HotstuffBlockHeader}
    (path : (headerForest collisionFree).Path header.parentHash hashes) :
    store.getBlock (hashHeader header) = none := by
  rw [← Option.not_isSome_iff_eq_none, reloaded.getBlock_isSome_iff]
  rintro (zero | member)
  · exact collisionFree.ne_zero header zero
  · have level := (path.level.child
      (headerForest_parent collisionFree header)).height_eq
    have inside : (headerForest collisionFree).height (hashHeader header) ∈
        List.range' 1 hashes.length := by
      rw [← path.heights]
      exact List.mem_map_of_mem member
    rw [level, List.mem_range'_1] at inside
    omega

/-- A saved block whose parent is the end of the path and that justifies an
ancestor is inserted. -/
theorem Reloaded.reloadBlock {disk : Disk} {wireBlock : HotstuffBlockWire}
    (path : (headerForest collisionFree).Path wireBlock.header.parentHash hashes)
    (loads : disk.loadBlock (hashHeader wireBlock.header) = some wireBlock)
    (justified : AncestorJustified collisionFree wireBlock.header)
    (highest : Nat) :
    ∃ after, disk.reloadBlock (store, highest) (hashHeader wireBlock.header) =
        .ok (after, hashes.length + 1) ∧
      Reloaded after (hashes ++ [hashHeader wireBlock.header]) := by
  have fresh : (HotstuffBlock.ofDisk wireBlock).links =
      (HotstuffBlock.new wireBlock unknownReplica).links := rfl
  obtain ⟨complete, appended⟩ := reloaded.tree.alloc_insertBlock fresh
    (reloaded.getBlock_isSome_iff.mpr (path.mem_of_ancestor (.refl _)))
    (reloaded.getBlock_isSome_iff.mpr
      (path.mem_of_ancestor justified.ancestor))
  have after := reloaded.append appended (reloaded.getBlock_child path)
  have height := appended.tree.height_eq collisionFree
    (after.inTree store.heap.length (by rw [appended.length]; omega)).2
  have level := path.level.child
    (headerForest_parent collisionFree wireBlock.header)
  rw [appended.hash, level.height_eq] at height
  refine ⟨_, ?_, after⟩
  rw [Disk.reloadBlock, Disk.loadDecidedBlock, loads, height]
  exact if_neg (Bool.eq_false_iff.mp complete)

end Path

/-- The blocks of a path are reloaded when all of them can be loaded and justify
ancestors. -/
theorem reloaded_of_path {disk : Disk} {top : Hash} {hashes : List Hash}
    (path : (headerForest collisionFree).Path top hashes)
    (loads : ∀ hash ∈ hashes, ∃ wireBlock,
      disk.loadBlock hash = some wireBlock ∧
        hashHeader wireBlock.header = hash ∧
        AncestorJustified collisionFree wireBlock.header) :
    ∃ store, hashes.foldlM disk.reloadBlock (.init, 0) =
        .ok (store, hashes.length) ∧
      Reloaded store hashes := by
  induction path with
  | root => exact ⟨.init, rfl, .init⟩
  | @child above node nodes edge upper ih =>
      obtain ⟨store, loaded, reloaded⟩ :=
        ih fun hash member => loads hash (List.mem_append_left _ member)
      obtain ⟨wireBlock, found, rfl, justified⟩ := loads node (by simp)
      obtain rfl : wireBlock.header.parentHash = above := Option.some.inj
        ((headerForest_parent collisionFree _).symm.trans edge)
      obtain ⟨after, step, result⟩ :=
        reloaded.reloadBlock upper found justified nodes.length
      refine ⟨after, ?_, result⟩
      rw [List.foldlM_append, loaded, List.length_append]
      change disk.reloadBlock (store, nodes.length) _ >>= pure = _
      rw [step]
      rfl

/-- The last object is the end of the path. -/
theorem Reloaded.hash_last {store : BlockStore} {top : Hash}
    {hashes : List Hash} (reloaded : Reloaded store hashes)
    (path : (headerForest collisionFree).Path top hashes)
    (nonempty : hashes ≠ []) : store.hash hashes.length = top := by
  have objects := reloaded.objects
  rw [reloaded.length, List.range_succ, List.map_append] at objects
  cases path with
  | root => exact (nonempty rfl).elim
  | child =>
      rw [← List.cons_append] at objects
      have last := congrArg List.getLast? objects
      simpa only [List.map_singleton, List.getLast?_concat,
        Option.some.injEq] using last

theorem Reloaded.height_last {store : BlockStore} {top : Hash}
    {hashes : List Hash} (reloaded : Reloaded store hashes)
    (path : (headerForest collisionFree).Path top hashes)
    (nonempty : hashes ≠ []) :
    store.height hashes.length = hashes.length := by
  have placed := (reloaded.inTree hashes.length
    (by rw [reloaded.length]; omega)).2
  rw [← reloaded.tree.height_eq collisionFree placed,
    reloaded.hash_last path nonempty, path.level.height_eq]

/-! ### The state after reloading -/

/-- The state that `reload_state_from_index` leaves on the highest decided
block. -/
structure HotstuffCore.SettledOn (core : HotstuffCore) (top : BlockPtr) :
    Prop where
  bExec : core.bExec = top
  bLock : core.bLock = top
  hqc : core.hqc.1 = top
  bLeaf : core.bLeaf = top
  certified : core.hqc.2.justify = core.store.hash top
  verified : (QuorumCertificate.ofWire core.hqc.2).verify core.config = .ok true

/-- Reloading from a path of saved blocks and a certificate on its end. -/
theorem reloadDecidedBlocks_of_path (selfId : ReplicaID)
    {config : ReplicaConfig} (secretKey : SecretKey) {disk : Disk}
    {qc : QuorumCertificateWire} {hashes : List Hash}
    (index : disk.decidedHashIndex.entries.map Prod.snd = hashes)
    (top : disk.qcOnTopBlock = some qc) (nonempty : hashes ≠ [])
    (path : (headerForest collisionFree).Path qc.justify hashes)
    (verified : (QuorumCertificate.ofWire qc).verify config = .ok true)
    (loads : ∀ hash ∈ hashes, ∃ wireBlock,
      disk.loadBlock hash = some wireBlock ∧
        hashHeader wireBlock.header = hash ∧
        AncestorJustified collisionFree wireBlock.header) :
    ∃ reloaded, (HotstuffCore.init selfId config
          secretKey).reloadDecidedBlocks disk =
        .ok (reloaded, hashes.length) ∧
      Reloaded reloaded.store hashes ∧
      reloaded.SettledOn hashes.length ∧ reloaded.config = config := by
  obtain ⟨store, loaded, reloaded⟩ := reloaded_of_path path loads
  have bound : hashes.length < store.heap.length := by
    rw [reloaded.length]
    omega
  have stored := (reloaded.inTree hashes.length bound).1
  have topHash := reloaded.hash_last path nonempty
  rw [BlockStore.Stored, topHash] at stored
  let core := { HotstuffCore.init selfId config secretKey with store := store }
  have found : core.findBlockByHash (QuorumCertificate.ofWire qc).objHash =
      .ok hashes.length := by
    rw [HotstuffCore.findBlockByHash, QuorumCertificate.objHash_ofWire]
    change (match store.getBlock qc.justify with
      | none => _
      | some p => Except.ok p) = _
    rw [stored]
  refine ⟨{ core.updateHqc hashes.length (.ofWire qc) with
      vheight := core.store.height hashes.length % 2 ^ 32
      bExec := hashes.length
      bLock := hashes.length }, ?_, ?_, ?_⟩
  · rw [HotstuffCore.reloadDecidedBlocks, index,
      show (HotstuffCore.init selfId config secretKey).store = .init from rfl,
      loaded]
    change core.reloadStateFromIndex disk >>= _ = _
    rw [HotstuffCore.reloadStateFromIndex, Disk.getHighestQc, top]
    change (core.findBlockByHash _ >>= _) >>= _ = _
    rw [found]
    rfl
  · rw [HotstuffCore.updateHqc_store]
    exact reloaded
  · have raised : core.store.height core.hqc.1 <
        core.store.height hashes.length := by
      change store.height 0 < store.height hashes.length
      rw [reloaded.tree.genesis_height, reloaded.height_last path nonempty]
      exact List.length_pos_iff.mpr nonempty
    rcases core.updateHqc_cases hashes.length (.ofWire qc) with
      ⟨-, effects, -, result⟩ | ⟨low, -⟩
    · rw [result]
      refine ⟨⟨rfl, rfl, rfl, rfl, ?_, ?_⟩, rfl⟩
      · exact (QuorumCertificate.objHash_ofWire qc).trans topHash.symm
      change (QuorumCertificate.ofWire
        (QuorumCertificate.ofWire qc).serialize).verify config = _
      rw [QuorumCertificate.ofWire_serialize
        (QuorumCertificate.keys_ofWire_lt qc)]
      exact verified
    · exact (Nat.not_lt.mpr low raised).elim

end Hotstuff
