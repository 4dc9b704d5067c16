import Hotstuff.Certificates
import Hotstuff.ParentForest

/-!
# Block objects

A `HotstuffBlock` wraps a wire block with what the replica derives about it:
its height and its parent and justify blocks once it is in the block store, the
votes collected for it, and status flags.  Shared pointers to block objects are
indices into a heap, so that two objects of one wire block stay apart as they
do in the program.

The parent and justify hashes of the headers span a forest over all hashes,
which does not depend on any replica's store.
-/

namespace Hotstuff

variable [WireTypes] [Externals]

/-- `block_ptr_t`, an index into the heap; a null pointer is `none`. -/
abbrev BlockPtr := Nat

/-- Heights are natural numbers: every block on a parent chain is an object in
memory, so a 64-bit height cannot wrap around. -/
structure HotstuffBlock where
  wireBlock : HotstuffBlockWire
  parsedQc : Option QuorumCertificate
  proposer : ReplicaID
  blockHeight : Nat
  parentBlockPtr : Option BlockPtr
  justifyBlockPtr : Option BlockPtr
  selfQc : QuorumCertificate
  decided : Bool
  writtenToDisk : Bool
  hashChecked : Bool
  hashValid : Bool
  flushedFromMemory : Bool

namespace HotstuffBlock

/-- The constructor for received and newly minted blocks. -/
def new (wireBlock : HotstuffBlockWire) (proposer : ReplicaID) :
    HotstuffBlock where
  wireBlock := wireBlock
  parsedQc := some (.ofWire wireBlock.header.qc)
  proposer := proposer
  blockHeight := 0
  parentBlockPtr := none
  justifyBlockPtr := none
  selfQc := .new (hashHeader wireBlock.header)
  decided := false
  writtenToDisk := false
  hashChecked := false
  hashValid := false
  flushedFromMemory := false

/-- The constructor for decided blocks that are loaded from disk. -/
def ofDisk (wireBlock : HotstuffBlockWire) : HotstuffBlock :=
  { new wireBlock unknownReplica with
    decided := true
    writtenToDisk := true
    hashChecked := true
    hashValid := true }

omit [Externals] in
/-- The block that all parent chains start from. -/
def genesisBlock : HotstuffBlock where
  wireBlock :=
    { header :=
        { parentHash := zeroHash
          qc := { justify := zeroHash, bmp := 0, sigs := [] }
          bodyHash := zeroHash }
      body := [] }
  parsedQc := none
  proposer := unknownReplica
  blockHeight := 0
  parentBlockPtr := none
  justifyBlockPtr := none
  selfQc := .new zeroHash
  decided := true
  writtenToDisk := true
  hashChecked := true
  hashValid := true
  flushedFromMemory := true

def receiveBlock (wireBlock : HotstuffBlockWire) (source : ReplicaID) :
    HotstuffBlock :=
  new wireBlock source

def mintBlock (body : Body) (qcWire : QuorumCertificateWire)
    (parentHash : Hash) (selfId : ReplicaID) : HotstuffBlock :=
  new
    { header := { parentHash := parentHash, qc := qcWire,
                  bodyHash := hashBody body }
      body := body }
    selfId

section Accessors

omit [Externals]

def getHash (block : HotstuffBlock) : Hash := block.selfQc.objHash

def getParentHash (block : HotstuffBlock) : Hash :=
  block.wireBlock.header.parentHash

/-- `*parsed_qc`.  Only the genesis block has no certificate, and no caller
asks for it there. -/
def getJustifyQc (block : HotstuffBlock) : QuorumCertificate :=
  block.parsedQc.getD (.new zeroHash)

def getJustifyHash (block : HotstuffBlock) : Hash := block.getJustifyQc.objHash

/-- `decide()` -/
def markDecided (block : HotstuffBlock) : HotstuffBlock :=
  { block with decided := true }

/-- `written_to_disk.test_and_set()` -/
def markWritten (block : HotstuffBlock) : HotstuffBlock :=
  { block with writtenToDisk := true }

/-- Replace the certificate that collects the votes on the block. -/
def withSelfQc (selfQc : QuorumCertificate) (block : HotstuffBlock) :
    HotstuffBlock :=
  { block with selfQc := selfQc }

/-- The block has its parent, justify block and height. -/
def Linked (block : HotstuffBlock) : Prop := block.parentBlockPtr.isSome

instance (block : HotstuffBlock) : Decidable block.Linked :=
  inferInstanceAs (Decidable (_ = true))

/-- What the identity of a block and its place in the block tree consist of;
all other fields are statuses. -/
structure Links where
  hash : Hash
  header : HotstuffBlockHeader
  parsedQc : Option QuorumCertificate
  blockHeight : Nat
  parentBlockPtr : Option BlockPtr
  justifyBlockPtr : Option BlockPtr

def links (block : HotstuffBlock) : Links where
  hash := block.getHash
  header := block.wireBlock.header
  parsedQc := block.parsedQc
  blockHeight := block.blockHeight
  parentBlockPtr := block.parentBlockPtr
  justifyBlockPtr := block.justifyBlockPtr

end Accessors

/-! ### Validation -/

/-- Compare the body with the hash in the header, once: the answer is kept in
the block. -/
def validateHash (block : HotstuffBlock) : Bool × HotstuffBlock :=
  if block.hashChecked then (block.hashValid, block)
  else
    let valid := decide
      (hashBody block.wireBlock.body = block.wireBlock.header.bodyHash)
    (valid, { block with hashChecked := true, hashValid := valid })

def validateHotstuff (block : HotstuffBlock) (config : ReplicaConfig) :
    Except String Bool × HotstuffBlock :=
  let checked := block.validateHash
  if checked.1 then (checked.2.getJustifyQc.verify config, checked.2)
  else (.ok false, checked.2)

/-- Validation only remembers that the hash was checked. -/
theorem property_validateHotstuff {Property : Type*}
    (property : HotstuffBlock → Property)
    (kept : ∀ (block : HotstuffBlock) (valid : Bool),
      property { block with hashChecked := true, hashValid := valid } =
        property block)
    (block : HotstuffBlock) (config : ReplicaConfig) :
    property (block.validateHotstuff config).2 = property block := by
  have checked : property block.validateHash.2 = property block := by
    unfold validateHash
    split
    · rfl
    · exact kept _ _
  unfold validateHotstuff
  dsimp only
  split <;> exact checked

theorem getJustifyHash_new (wireBlock : HotstuffBlockWire)
    (proposer : ReplicaID) :
    (new wireBlock proposer).getJustifyHash = wireBlock.header.qc.justify :=
  QuorumCertificate.objHash_ofWire _

/-- A fresh block passes validation exactly when its body matches the header
and its certificate verifies. -/
theorem validateHotstuff_new (wireBlock : HotstuffBlockWire)
    (proposer : ReplicaID) (config : ReplicaConfig) :
    ((new wireBlock proposer).validateHotstuff config).1 = .ok true ↔
      hashBody wireBlock.body = wireBlock.header.bodyHash ∧
        (QuorumCertificate.ofWire wireBlock.header.qc).verify config =
          .ok true := by
  unfold validateHotstuff validateHash
  by_cases same : hashBody wireBlock.body = wireBlock.header.bodyHash
  · simp [new, same, getJustifyQc]
  · simp [new, same]

end HotstuffBlock

/-! ### The forest of headers -/

open Classical in
/-- A hash has as parent the parent named in the header that it is the hash
of. -/
noncomputable def headerForest (collisionFree : CollisionFree) :
    ParentForest Hash where
  root := zeroHash
  parent := fun hash =>
    if header : ∃ header, hashHeader header = hash then
      some header.choose.parentHash
    else none
  parent_root := by
    rw [dif_neg]
    rintro ⟨header, zero⟩
    exact collisionFree.ne_zero header zero

open Classical in
/-- The hash that the certificate in a header certifies. -/
noncomputable def headerJustify (hash : Hash) : Option Hash :=
  if header : ∃ header, hashHeader header = hash then
    some header.choose.qc.justify
  else none

theorem headerForest_parent (collisionFree : CollisionFree)
    (header : HotstuffBlockHeader) :
    (headerForest collisionFree).parent (hashHeader header) =
      some header.parentHash := by
  have known : ∃ other, hashHeader other = hashHeader header := ⟨header, rfl⟩
  have same : known.choose = header :=
    collisionFree.injective known.choose_spec
  simp only [headerForest]
  rw [dif_pos known, same]

theorem headerJustify_hashHeader (collisionFree : CollisionFree)
    (header : HotstuffBlockHeader) :
    headerJustify (hashHeader header) = some header.qc.justify := by
  have known : ∃ other, hashHeader other = hashHeader header := ⟨header, rfl⟩
  have same : known.choose = header :=
    collisionFree.injective known.choose_spec
  rw [headerJustify, dif_pos known, same]

end Hotstuff
