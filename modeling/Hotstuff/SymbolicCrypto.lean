import Hotstuff.WireFormat
import Mathlib.Data.List.Sort

/-!
# A symbolic instance of the external libraries

Hashes and signatures as terms: the hash of a header is the term built from
its fields, and the signature of a hash is the pair of the key and the hash.
The instance shows that the assumptions on the libraries can be met, and
concrete runs are evaluated in it.
-/

namespace Hotstuff

namespace Symbolic

inductive Term
  | leaf (tag : Nat)
  | pair (first second : Term)
  deriving DecidableEq

namespace Term

def ofList : List Term → Term
  | [] => leaf 0
  | term :: terms => pair term (ofList terms)

theorem ofList_injective : Function.Injective ofList := by
  intro first second equal
  induction first generalizing second with
  | nil =>
      cases second with
      | nil => rfl
      | cons term terms => cases equal
  | cons term terms ih =>
      cases second with
      | nil => cases equal
      | cons other others =>
          obtain ⟨rfl, rest⟩ := Term.pair.inj equal
          rw [ih rest]

end Term

scoped instance types : WireTypes where
  Hash := Term
  Signature := Term
  PublicKey := Nat
  SecretKey := Nat
  hashDecidableEq := inferInstance
  signatureDecidableEq := inferInstance
  zeroHash := .leaf 0

/-- The bitmap with one more bit set. -/
def setBit (bmp : ReplicaIDBitMap) (rid : ReplicaID) : ReplicaIDBitMap :=
  bmp ||| BitVec.twoPow 32 rid

/-- The lowest set bit, and the bitmap without it. -/
def popBit (bmp : ReplicaIDBitMap) : ReplicaID × ReplicaIDBitMap :=
  let low := bmp.members.headD 0
  (low, bmp &&& ~~~ BitVec.twoPow 32 low)

theorem mem_members {bmp : ReplicaIDBitMap} {bit : ReplicaID} :
    bit ∈ bmp.members ↔ bit < 32 ∧ bmp.getLsbD bit = true := by
  simp [ReplicaIDBitMap.members]

theorem mem_setBit (bmp : ReplicaIDBitMap) (rid : ReplicaID) (small : rid < 32)
    (bit : ReplicaID) :
    bit ∈ (setBit bmp rid).members ↔ bit = rid ∨ bit ∈ bmp.members := by
  simp only [mem_members, setBit, BitVec.getLsbD_or, BitVec.getLsbD_twoPow,
    Bool.or_eq_true, Bool.and_eq_true, decide_eq_true_eq]
  constructor
  · rintro ⟨bound, old | ⟨-, rfl⟩⟩
    · exact .inr ⟨bound, old⟩
    · exact .inl rfl
  · rintro (rfl | ⟨bound, old⟩)
    · exact ⟨small, .inr ⟨small, rfl⟩⟩
    · exact ⟨bound, .inl old⟩

theorem popBit_eq (bmp : ReplicaIDBitMap) (low : ReplicaID)
    (rest : List ReplicaID) (members : bmp.members = low :: rest) :
    (popBit bmp).1 = low ∧ (popBit bmp).2.members = rest := by
  have sorted := bmp.members_sorted
  rw [members] at sorted
  obtain ⟨above, restSorted⟩ := List.pairwise_cons.mp sorted
  have head : bmp.members.headD 0 = low := by rw [members]; rfl
  refine ⟨head, ?_⟩
  refine List.Pairwise.eq_of_mem_iff (r := (· < ·))
    (ReplicaIDBitMap.members_sorted _) restSorted ?_
  intro bit
  have old : bit ∈ bmp.members ↔ bit = low ∨ bit ∈ rest := by
    rw [members, List.mem_cons]
  simp only [mem_members] at old
  simp only [mem_members, popBit, head, BitVec.getLsbD_and, BitVec.getLsbD_not,
    BitVec.getLsbD_twoPow, Bool.and_eq_true, Bool.not_eq_true',
    decide_eq_true_eq, Bool.and_eq_false_iff, decide_eq_false_iff_not]
  constructor
  · rintro ⟨bound, isSet, -, other⟩
    rcases old.mp ⟨bound, isSet⟩ with rfl | member
    · simp [bound] at other
    · exact member
  · intro member
    obtain ⟨bound, isSet⟩ := old.mpr (.inr member)
    exact ⟨bound, isSet, bound, .inr (above bit member).ne⟩

/-- A signature is the pair of the key and the signed hash. -/
def validSig (sig hash : Term) (pk : Nat) : Bool :=
  decide (sig = .pair (.leaf pk) hash)

scoped instance externals : Externals where
  hashHeader := fun header =>
    .pair header.bodyHash (.pair header.parentHash (.pair header.qc.justify
      (.pair (.leaf header.qc.bmp.toNat) (.ofList header.qc.sigs))))
  hashBody := fun body => .ofList (body.map fun byte => .leaf byte.toNat)
  checkSig := validSig
  cryptoSign := fun hash sk => .pair (.leaf sk) hash
  bitVectorSize := fun bmp => bmp.members.length
  bitVectorPop := popBit
  bitVectorAdd := setBit
  bitVectorSize_eq := fun _ => rfl
  bitVectorPop_eq := popBit_eq
  mem_bitVectorAdd := mem_setBit

theorem collisionFree : CollisionFree where
  injective := by
    rintro ⟨parent, ⟨justify, bmp, sigs⟩, body⟩
      ⟨parent', ⟨justify', bmp', sigs'⟩, body'⟩ equal
    obtain ⟨rfl, equal⟩ := Term.pair.inj equal
    obtain ⟨rfl, equal⟩ := Term.pair.inj equal
    obtain ⟨rfl, equal⟩ := Term.pair.inj equal
    obtain ⟨bmpEq, sigsEq⟩ := Term.pair.inj equal
    obtain rfl := BitVec.eq_of_toNat_eq (Term.leaf.inj bmpEq)
    obtain rfl := Term.ofList_injective sigsEq
    rfl
  ne_zero := by
    intro header equal
    cases equal

/-- Every key signs for itself. -/
theorem checkSig_cryptoSign (hash : Hash) (key : SecretKey) :
    checkSig (cryptoSign hash key) hash key = true :=
  decide_eq_true (p := (Term.pair (.leaf key) hash = .pair (.leaf key) hash))
    rfl

end Symbolic

end Hotstuff
