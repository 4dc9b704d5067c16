import Mathlib.Algebra.Group.Nat.Defs
import Mathlib.Data.List.Basic

/-!
# Wire types and external libraries

The opaque byte arrays of `types.x` are abstract types: nothing in the
protocol looks inside a hash, a key or a signature, and keeping the types
abstract is what allows a header hash without collisions to exist at all.
Hashing and signing (libsodium) and `utils::BitVector` are not part of the
repository.  They enter as the operations of `Externals`, the bit vector with
the behaviour that its callers rely on: `size` counts the set bits and `pop`
removes the lowest one.
-/

namespace Hotstuff

/-- `uint32 ReplicaID`; valid replicas have ids below `maxReplicas`. -/
abbrev ReplicaID := Nat

/-- `MAX_REPLICAS`, the length of the signer bitmap. -/
def maxReplicas : Nat := 32

/-- `UNKNOWN_REPLICA`, the proposer of genesis and of reloaded blocks. -/
def unknownReplica : ReplicaID := 32

/-- `uint32 ReplicaIDBitMap` -/
abbrev ReplicaIDBitMap := BitVec 32

/-- The set bits of a bitmap, lowest first. -/
def ReplicaIDBitMap.members (bmp : ReplicaIDBitMap) : List ReplicaID :=
  (List.range 32).filter fun bit => bmp.getLsbD bit

theorem ReplicaIDBitMap.members_sorted (bmp : ReplicaIDBitMap) :
    bmp.members.Pairwise (· < ·) :=
  List.pairwise_lt_range.filter _

theorem ReplicaIDBitMap.lt_of_mem_members {bmp : ReplicaIDBitMap}
    {bit : ReplicaID} (member : bit ∈ bmp.members) : bit < 32 :=
  List.mem_range.mp (List.mem_filter.mp member).1

/-- A bitmap is the set of its members. -/
theorem ReplicaIDBitMap.members_injective :
    Function.Injective ReplicaIDBitMap.members := by
  intro first second same
  apply BitVec.eq_of_getLsbD_eq
  intro bit small
  have equal : bit ∈ first.members ↔ bit ∈ second.members := by rw [same]
  simp only [members, List.mem_filter, List.mem_range, small,
    true_and] at equal
  exact Bool.eq_iff_iff.mpr equal

@[simp]
theorem ReplicaIDBitMap.members_zero :
    (0 : ReplicaIDBitMap).members = [] := by
  simp [ReplicaIDBitMap.members]

/-- `opaque body<>`, a serialized VM block. -/
abbrev Body := List UInt8

/-- The fixed-size opaque arrays of `types.x`. -/
class WireTypes where
  Hash : Type
  Signature : Type
  PublicKey : Type
  SecretKey : Type
  hashDecidableEq : DecidableEq Hash
  signatureDecidableEq : DecidableEq Signature
  /-- the value-initialised `Hash()` -/
  zeroHash : Hash

export WireTypes (Hash Signature PublicKey SecretKey zeroHash)

instance [WireTypes] : DecidableEq Hash := WireTypes.hashDecidableEq

instance [WireTypes] : DecidableEq Signature := WireTypes.signatureDecidableEq

variable [WireTypes]

structure PartialCertificateWire where
  hash : Hash
  sig : Signature
  deriving DecidableEq

structure QuorumCertificateWire where
  justify : Hash
  bmp : ReplicaIDBitMap
  sigs : List Signature
  deriving DecidableEq

/-- A block is hashed by hashing its header only; `qc.justify` need not be the
direct parent. -/
structure HotstuffBlockHeader where
  parentHash : Hash
  qc : QuorumCertificateWire
  bodyHash : Hash
  deriving DecidableEq

structure HotstuffBlockWire where
  header : HotstuffBlockHeader
  body : Body
  deriving DecidableEq

/-- Operations of the libraries that the repository links against. -/
class Externals where
  /-- `hash_xdr` of a block header -/
  hashHeader : HotstuffBlockHeader → Hash
  /-- `hash_xdr` of a block body -/
  hashBody : Body → Hash
  /-- `crypto_sign_verify_detached` -/
  checkSig : Signature → Hash → PublicKey → Bool
  /-- `crypto_sign_detached` -/
  cryptoSign : Hash → SecretKey → Signature
  bitVectorSize : ReplicaIDBitMap → Nat
  bitVectorPop : ReplicaIDBitMap → ReplicaID × ReplicaIDBitMap
  bitVectorAdd : ReplicaIDBitMap → ReplicaID → ReplicaIDBitMap
  bitVectorSize_eq : ∀ bmp, bitVectorSize bmp = bmp.members.length
  bitVectorPop_eq : ∀ bmp low rest, bmp.members = low :: rest →
    (bitVectorPop bmp).1 = low ∧ (bitVectorPop bmp).2.members = rest
  mem_bitVectorAdd : ∀ bmp rid, rid < 32 → ∀ bit,
    bit ∈ (bitVectorAdd bmp rid).members ↔ bit = rid ∨ bit ∈ bmp.members

export Externals (hashHeader hashBody checkSig cryptoSign)

/-- The assumption on the header hash: two headers never share a hash, and no
header hashes to the all-zero hash that stands for the genesis block. -/
structure CollisionFree [Externals] : Prop where
  injective : Function.Injective (hashHeader : HotstuffBlockHeader → Hash)
  ne_zero : ∀ header : HotstuffBlockHeader, hashHeader header ≠ zeroHash

end Hotstuff
