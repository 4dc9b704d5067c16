import Hotstuff.HotstuffVMBridge
import Mathlib.Data.List.Nodup

/-!
# The rows of the decided index

The index is an LMDB table of byte strings.  The key of a decided block is its
height, big-endian, and its value is the hash followed by the bytes of the VM
block id.  An empty id has no bytes, and a cursor turns whatever follows the
hash into an id, so an empty id does not come back.

The table and the conversion of heights are external; their behaviour is that of
`IndexLibraries`.
-/

namespace Hotstuff

/-- `opaque Hash[32]`, as the bytes that are written to the index. -/
@[ext]
structure HashArray where
  bytes : List UInt8
  size : bytes.length = 32

/-- LMDB and the big-endian conversion: reading gives what was written. -/
class IndexLibraries where
  Lmdb : Type
  empty : Lmdb
  put : Lmdb → List UInt8 → List UInt8 → Lmdb
  /-- the rows that a forward cursor passes -/
  cursor : Lmdb → List (List UInt8 × List UInt8)
  cursor_empty : cursor empty = []
  mem_cursor_put : ∀ db key value row,
    row ∈ cursor (put db key value) ↔
      row = (key, value) ∨ row ∈ cursor db ∧ row.1 ≠ key
  writeUnsignedBigEndian : UInt64 → List UInt8
  readUnsignedBigEndian : List UInt8 → UInt64
  readUnsignedBigEndian_write : ∀ height,
    readUnsignedBigEndian (writeUnsignedBigEndian height) = height

export IndexLibraries (Lmdb writeUnsignedBigEndian readUnsignedBigEndian)

namespace VMBlockID

def serialize (id : VMBlockID) : List UInt8 :=
  match id with
  | none => []
  | some value => value

/-- The constructor from bytes. -/
def ofBytes (bytes : List UInt8) : VMBlockID := some bytes

/-- Reading the bytes of an id back loses the difference between the empty id
and the id without bytes. -/
theorem ofBytes_serialize_iff (id : VMBlockID) :
    ofBytes id.serialize = id ↔ id.isSome = true := by
  cases id <;> simp [ofBytes, serialize]

end VMBlockID

section Index

variable [IndexLibraries]

namespace HotstuffLMDB

/-- `txn::add_decided_block` -/
def addDecidedBlock (db : Lmdb) (height : UInt64) (hash : HashArray)
    (id : VMBlockID) : Lmdb :=
  IndexLibraries.put db (writeUnsignedBigEndian height)
    (hash.bytes ++ VMBlockID.serialize id)

def getHashFromLmdbValue (valueBytes : List UInt8) :
    Except String HashArray :=
  if short : valueBytes.length < 32 then
    .error "invalid bytes length from lmdb"
  else
    .ok ⟨valueBytes.take 32, by rw [List.length_take]; omega⟩

/-- `operator*` of the cursor -/
def deref (row : List UInt8 × List UInt8) :
    Except String (UInt64 × HashArray) := do
  let hash ← getHashFromLmdbValue row.2
  return (readUnsignedBigEndian row.1, hash)

def getHsHashAndVmData (row : List UInt8 × List UInt8) :
    Except String (HashArray × VMBlockID) := do
  let hash ← getHashFromLmdbValue row.2
  return (hash, VMBlockID.ofBytes (row.2.drop 32))

omit [IndexLibraries] in
/-- The hash comes back, whatever follows it. -/
theorem getHashFromLmdbValue_append (hash : HashArray) (rest : List UInt8) :
    getHashFromLmdbValue (hash.bytes ++ rest) = .ok hash := by
  have long : ¬ (hash.bytes ++ rest).length < 32 := by
    rw [List.length_append, hash.size]
    omega
  rw [getHashFromLmdbValue, dif_neg long]
  congr 1
  ext1
  change (hash.bytes ++ rest).take 32 = hash.bytes
  rw [← hash.size, List.take_left]

theorem deref_row (height : UInt64) (hash : HashArray) (id : VMBlockID) :
    deref (writeUnsignedBigEndian height,
      hash.bytes ++ VMBlockID.serialize id) = .ok (height, hash) := by
  simp [deref, getHashFromLmdbValue_append, bind, Except.bind, pure,
    Except.pure, IndexLibraries.readUnsignedBigEndian_write]

omit [IndexLibraries] in
theorem getHsHashAndVmData_row (key : List UInt8) (hash : HashArray)
    (id : VMBlockID) :
    getHsHashAndVmData (key, hash.bytes ++ VMBlockID.serialize id) =
      .ok (hash, VMBlockID.ofBytes (VMBlockID.serialize id)) := by
  have rest : (hash.bytes ++ VMBlockID.serialize id).drop 32 =
      VMBlockID.serialize id := by
    rw [← hash.size, List.drop_left]
  simp [getHsHashAndVmData, getHashFromLmdbValue_append, rest, bind,
    Except.bind, pure, Except.pure]

/-- The cursor passes a row for the height that gives the hash and the id. -/
def Returns (db : Lmdb) (height : UInt64) (hash : HashArray)
    (id : VMBlockID) : Prop :=
  ∃ value,
    (writeUnsignedBigEndian height, value) ∈ IndexLibraries.cursor db ∧
      deref (writeUnsignedBigEndian height, value) = .ok (height, hash) ∧
      getHsHashAndVmData (writeUnsignedBigEndian height, value) =
        .ok (hash, id)

/-- A stored row returns its height, its hash and the bytes of its id. -/
theorem returns_of_row {db : Lmdb} {height : UInt64} {hash : HashArray}
    {id : VMBlockID}
    (stored : (writeUnsignedBigEndian height,
      hash.bytes ++ VMBlockID.serialize id) ∈ IndexLibraries.cursor db) :
    Returns db height hash (VMBlockID.ofBytes (VMBlockID.serialize id)) :=
  ⟨_, stored, deref_row height hash id, getHsHashAndVmData_row _ hash id⟩

/-- After the row has been stored, the cursor returns the id exactly when it is
not the empty one. -/
theorem returns_addDecidedBlock_iff (db : Lmdb) (height : UInt64)
    (hash : HashArray) (id : VMBlockID) :
    Returns (addDecidedBlock db height hash id) height hash id ↔
      id.isSome = true := by
  rw [← VMBlockID.ofBytes_serialize_iff]
  constructor
  · rintro ⟨value, member, -, data⟩
    rw [addDecidedBlock, IndexLibraries.mem_cursor_put] at member
    rcases member with new | ⟨-, other⟩
    · obtain ⟨-, rfl⟩ := Prod.mk.inj new
      rw [getHsHashAndVmData_row] at data
      exact (Prod.mk.inj (Except.ok.inj data)).2
    · exact (other rfl).elim
  · intro same
    have stored : (writeUnsignedBigEndian height,
        hash.bytes ++ VMBlockID.serialize id) ∈
          IndexLibraries.cursor (addDecidedBlock db height hash id) :=
      (IndexLibraries.mem_cursor_put _ _ _ _).mpr (.inl rfl)
    have returned := returns_of_row stored
    rwa [same] at returned

/-! ### Replaying a committed chain -/

/-- What `apply_block` reads of a decided block. -/
structure DecidedBlock where
  height : UInt64
  hash : HashArray
  body : Body

variable [VMBase]

namespace DecidedBlock

def id (blk : DecidedBlock) : VMBlockID :=
  HotstuffVMBridge.getBlockId (VMBase.tryParse blk.body)

def row (blk : DecidedBlock) : List UInt8 × List UInt8 :=
  (writeUnsignedBigEndian blk.height,
    blk.hash.bytes ++ VMBlockID.serialize blk.id)

/-- The body of the block is a VM block. -/
def CarriesVmBlock (blk : DecidedBlock) : Prop :=
  (VMBase.tryParse blk.body).isSome = true

instance decidableCarriesVmBlock (blk : DecidedBlock) :
    Decidable blk.CarriesVmBlock :=
  inferInstanceAs (Decidable (_ = true))

end DecidedBlock

/-- The index after the blocks have been applied, first block first. -/
def logChain (db : Lmdb) (chain : List DecidedBlock) : Lmdb :=
  chain.foldl (fun db blk => addDecidedBlock db blk.height blk.hash blk.id) db

omit [VMBase] in
theorem writeUnsignedBigEndian_injective :
    Function.Injective (writeUnsignedBigEndian : UInt64 → List UInt8) :=
  Function.LeftInverse.injective IndexLibraries.readUnsignedBigEndian_write

/-- Blocks of different heights have different rows, so all of them stay. -/
theorem mem_cursor_logChain (db : Lmdb) {chain : List DecidedBlock}
    (distinct : (chain.map DecidedBlock.height).Nodup)
    (row : List UInt8 × List UInt8) :
    row ∈ IndexLibraries.cursor (logChain db chain) ↔
      (∃ blk ∈ chain, row = blk.row) ∨
        row ∈ IndexLibraries.cursor db ∧
          ∀ blk ∈ chain, row.1 ≠ writeUnsignedBigEndian blk.height := by
  induction chain generalizing db with
  | nil => simp [logChain]
  | cons blk chain ih =>
      obtain ⟨fresh, distinct⟩ := List.nodup_cons.mp distinct
      have different : ∀ other ∈ chain,
          writeUnsignedBigEndian blk.height ≠
            writeUnsignedBigEndian other.height := by
        intro other member same
        exact fresh (writeUnsignedBigEndian_injective same ▸
          List.mem_map_of_mem member)
      rw [logChain, List.foldl_cons]
      refine (ih (addDecidedBlock db blk.height blk.hash blk.id)
        distinct).trans ?_
      rw [addDecidedBlock, IndexLibraries.mem_cursor_put]
      constructor
      · rintro (⟨other, member, rfl⟩ | ⟨rfl | ⟨old, notFirst⟩, notLater⟩)
        · exact .inl ⟨other, List.mem_cons_of_mem _ member, rfl⟩
        · exact .inl ⟨blk, List.mem_cons_self, rfl⟩
        · exact .inr ⟨old, List.forall_mem_cons.mpr ⟨notFirst, notLater⟩⟩
      · rintro (⟨other, member, rfl⟩ | ⟨old, notKey⟩)
        · rcases List.mem_cons.mp member with rfl | later
          · exact .inr ⟨.inl rfl, different⟩
          · exact .inl ⟨other, later, rfl⟩
        · obtain ⟨notFirst, notLater⟩ := List.forall_mem_cons.mp notKey
          exact .inr ⟨.inr ⟨old, notFirst⟩, notLater⟩

omit [VMBase] in
/-- The replaying VM gets a non-empty id at the height. -/
def SeesVmBlock (db : Lmdb) (height : UInt64) : Prop :=
  ∃ hash id, Returns db height hash id ∧ id.isSome = true

/-- It does so at all heights of the chain. -/
theorem seesVmBlock_logChain_iff {chain : List DecidedBlock}
    (distinct : (chain.map DecidedBlock.height).Nodup) (height : UInt64) :
    SeesVmBlock (logChain IndexLibraries.empty chain) height ↔
      ∃ blk ∈ chain, blk.height = height := by
  constructor
  · rintro ⟨hash, id, ⟨value, member, -⟩, -⟩
    rw [mem_cursor_logChain _ distinct, IndexLibraries.cursor_empty] at member
    rcases member with ⟨blk, inChain, same⟩ | ⟨impossible, -⟩
    · exact ⟨blk, inChain, (writeUnsignedBigEndian_injective
        (Prod.mk.inj same).1).symm⟩
    · cases impossible
  · rintro ⟨blk, inChain, rfl⟩
    have stored :=
      (mem_cursor_logChain IndexLibraries.empty distinct blk.row).mpr
        (.inl ⟨blk, inChain, rfl⟩)
    exact ⟨blk.hash, _, returns_of_row stored, rfl⟩

end HotstuffLMDB

open HotstuffLMDB

/-- A row reads back exactly when its id is not the empty one; and the VM that
replays a committed chain sees non-empty ids exactly at the heights with VM
blocks if and only if all blocks of the chain carry one. -/
theorem decided_index_roundTrip_iff [VMBase] :
    (∀ (db : Lmdb) (height : UInt64) (hash : HashArray) (id : VMBlockID),
      Returns (addDecidedBlock db height hash id) height hash id ↔
        id.isSome = true) ∧
    ∀ chain : List DecidedBlock, (chain.map DecidedBlock.height).Nodup →
      ((∀ height,
        SeesVmBlock (logChain IndexLibraries.empty chain) height ↔
          ∃ blk ∈ chain, blk.height = height ∧ blk.CarriesVmBlock) ↔
        ∀ blk ∈ chain, blk.CarriesVmBlock) := by
  refine ⟨returns_addDecidedBlock_iff, ?_⟩
  intro chain distinct
  constructor
  · intro exactly blk inChain
    have seen := (seesVmBlock_logChain_iff distinct blk.height).mpr
      ⟨blk, inChain, rfl⟩
    obtain ⟨other, otherMem, sameHeight, carries⟩ := (exactly blk.height).mp seen
    have same := List.inj_on_of_nodup_map distinct otherMem inChain sameHeight
    rwa [same] at carries
  · intro carry height
    rw [seesVmBlock_logChain_iff distinct]
    constructor
    · rintro ⟨blk, inChain, sameHeight⟩
      exact ⟨blk, inChain, sameHeight, carry blk inChain⟩
    · rintro ⟨blk, inChain, sameHeight, -⟩
      exact ⟨blk, inChain, sameHeight⟩

end Index

/-! ### A table in memory -/

namespace Symbolic

/-- The eight base-256 digits of a height, the highest first. -/
def bigEndian (height : UInt64) : List UInt8 :=
  [56, 48, 40, 32, 24, 16, 8, 0].map fun shift =>
    UInt8.ofNat (height.toNat / 2 ^ shift)

def ofBigEndian (bytes : List UInt8) : UInt64 :=
  UInt64.ofNat (bytes.foldl (fun number byte => number * 256 + byte.toNat) 0)

/-- One byte more is read. -/
theorem shift_add_byte (number shift : Nat) :
    number / 2 ^ (shift + 8) * 256 + number / 2 ^ shift % 256 =
      number / 2 ^ shift := by
  rw [Nat.pow_add, ← Nat.div_div_eq_div_mul]
  exact Nat.div_add_mod' (number / 2 ^ shift) 256

theorem ofBigEndian_bigEndian (height : UInt64) :
    ofBigEndian (bigEndian height) = height := by
  have bound := height.toNat_lt
  have top : height.toNat / 2 ^ 56 % 256 = height.toNat / 2 ^ 56 := by
    apply Nat.mod_eq_of_lt
    omega
  have step := shift_add_byte height.toNat
  apply UInt64.toNat_inj.mp
  simp only [ofBigEndian, bigEndian, List.map_cons, List.map_nil,
    List.foldl_cons, List.foldl_nil, UInt8.toNat_ofNat', UInt64.toNat_ofNat']
  rw [Nat.zero_mul, Nat.zero_add, top, step 48, step 40, step 32, step 24,
    step 16, step 8, step 0, Nat.pow_zero, Nat.div_one]
  exact Nat.mod_eq_of_lt bound

/-- Rows are replaced or added. -/
scoped instance indexLibraries : IndexLibraries where
  Lmdb := List (List UInt8 × List UInt8)
  empty := []
  put := fun rows key value => (key, value) :: rows.filter (·.1 ≠ key)
  cursor := fun rows => rows
  cursor_empty := rfl
  mem_cursor_put := by
    intro rows key value row
    simp
  writeUnsignedBigEndian := bigEndian
  readUnsignedBigEndian := ofBigEndian
  readUnsignedBigEndian_write := ofBigEndian_bigEndian

def zeroArray : HashArray := ⟨List.replicate 32 0, rfl⟩

end Symbolic

open scoped Symbolic
open HotstuffLMDB

/-- Two blocks with one byte each, which the VM can parse. -/
theorem decided_index_two_blocks :
    let chain : List DecidedBlock :=
      [⟨1, Symbolic.zeroArray, [7]⟩, ⟨2, Symbolic.zeroArray, [8]⟩]
    ∀ height, SeesVmBlock (logChain IndexLibraries.empty chain) height ↔
      ∃ blk ∈ chain, blk.height = height ∧ blk.CarriesVmBlock := by
  intro chain
  refine (decided_index_roundTrip_iff.2 chain (by decide)).mpr ?_
  decide

/-- The row of an empty block at height one returns an id, and that id is not
empty. -/
theorem decided_index_empty_block :
    Returns (addDecidedBlock IndexLibraries.empty 1 Symbolic.zeroArray none)
        1 Symbolic.zeroArray (some []) ∧
      ¬ Returns
        (addDecidedBlock IndexLibraries.empty 1 Symbolic.zeroArray none)
        1 Symbolic.zeroArray none ∧
      SeesVmBlock (logChain IndexLibraries.empty
        [⟨1, Symbolic.zeroArray, []⟩]) 1 := by
  have stored : Returns
      (addDecidedBlock IndexLibraries.empty 1 Symbolic.zeroArray none) 1
      Symbolic.zeroArray (some []) :=
    returns_of_row ((IndexLibraries.mem_cursor_put _ _ _ _).mpr (.inl rfl))
  refine ⟨stored, ?_, _, _, stored, rfl⟩
  rw [returns_addDecidedBlock_iff]
  decide

end Hotstuff
