import Hotstuff.DecidedIndex
import Mathlib.Data.List.Induction

/-!
# Looking up one height

The decided index has two readers.  The cursor cuts the hash off the value of a
row before it makes a VM block id of the rest.  The lookup of one height makes
an id of the whole value, so the id that it returns starts with the bytes of the
hash.  The readers agree on which heights are stored and on their hashes, and
they never agree on an id.
-/

namespace Hotstuff

/-- LMDB with the lookup of a key, which gives what was put last. -/
class LookupLibraries extends IndexLibraries where
  get : Lmdb → List UInt8 → Option (List UInt8)
  get_empty : ∀ key, get empty key = none
  get_put : ∀ db key value other, get (put db key value) other =
    if other = key then some value else get db other

section Lookup

variable [LookupLibraries]

namespace HotstuffLMDB

/-- `get_decided_hash_id_pair_`, whose second component is the whole value. -/
def getDecidedHashIdBytes (db : Lmdb) (height : UInt64) :
    Except String (Option (HashArray × List UInt8)) :=
  match LookupLibraries.get db (writeUnsignedBigEndian height) with
  | none => .ok none
  | some valueBytes => do
      let hash ← getHashFromLmdbValue valueBytes
      return some (hash, valueBytes)

def getDecidedHashIdPair (db : Lmdb) (height : UInt64) :
    Except String (Option (HashArray × VMBlockID)) := do
  match ← getDecidedHashIdBytes db height with
  | none => return none
  | some out => return some (out.1, VMBlockID.ofBytes out.2)

/-- What is passed to `add_decided_block`. -/
structure DecidedEntry where
  height : UInt64
  hash : HashArray
  id : VMBlockID

namespace DecidedEntry

def value (entry : DecidedEntry) : List UInt8 :=
  entry.hash.bytes ++ VMBlockID.serialize entry.id

end DecidedEntry

/-- The index after the entries have been stored, the first entry first. -/
def storeEntries (entries : List DecidedEntry) : Lmdb :=
  entries.foldl
    (fun db entry => addDecidedBlock db entry.height entry.hash entry.id)
    IndexLibraries.empty

/-- The last entry that was stored for a height. -/
def lastStored (entries : List DecidedEntry) (height : UInt64) :
    Option DecidedEntry :=
  entries.reverse.find? fun entry => entry.height = height

/-- The lookup finds the heights that the cursor visits, and both return the
hash and the id that were stored. -/
structure ReadersAgree (entries : List DecidedEntry) (height : UInt64) :
    Prop where
  visited :
    (∃ found, getDecidedHashIdPair (storeEntries entries) height =
      .ok (some found)) ↔
    ∃ row ∈ IndexLibraries.cursor (storeEntries entries),
      readUnsignedBigEndian row.1 = height
  lookedUp : ∀ entry, lastStored entries height = some entry →
    getDecidedHashIdPair (storeEntries entries) height =
      .ok (some (entry.hash, entry.id))
  passed : ∀ entry, lastStored entries height = some entry →
    ∀ row ∈ IndexLibraries.cursor (storeEntries entries),
      readUnsignedBigEndian row.1 = height →
        getHsHashAndVmData row = .ok (entry.hash, entry.id)

/-! ### What is stored -/

theorem storeEntries_concat (entries : List DecidedEntry)
    (entry : DecidedEntry) :
    storeEntries (entries ++ [entry]) =
      addDecidedBlock (storeEntries entries) entry.height entry.hash
        entry.id := by
  simp [storeEntries]

omit [LookupLibraries] in
theorem lastStored_concat (entries : List DecidedEntry) (entry : DecidedEntry)
    (height : UInt64) :
    lastStored (entries ++ [entry]) height =
      if entry.height = height then some entry
      else lastStored entries height := by
  simp only [lastStored, List.reverse_append, List.reverse_cons,
    List.reverse_nil, List.nil_append, List.singleton_append, List.find?_cons]
  split <;> simp_all

theorem get_storeEntries (entries : List DecidedEntry) (height : UInt64) :
    LookupLibraries.get (storeEntries entries)
        (writeUnsignedBigEndian height) =
      (lastStored entries height).map DecidedEntry.value := by
  induction entries using List.reverseRecOn with
  | nil => exact LookupLibraries.get_empty _
  | append_singleton entries entry ih =>
      rw [storeEntries_concat, lastStored_concat, addDecidedBlock,
        LookupLibraries.get_put, ih]
      by_cases same : entry.height = height
      · subst same
        simp [DecidedEntry.value]
      · have otherKey : writeUnsignedBigEndian height ≠
            writeUnsignedBigEndian entry.height := by
          intro sameKey
          exact same (writeUnsignedBigEndian_injective sameKey).symm
        rw [if_neg otherKey, if_neg same]

theorem mem_cursor_storeEntries (entries : List DecidedEntry)
    (row : List UInt8 × List UInt8) :
    row ∈ IndexLibraries.cursor (storeEntries entries) ↔
      ∃ height entry, lastStored entries height = some entry ∧
        row = (writeUnsignedBigEndian height, entry.value) := by
  induction entries using List.reverseRecOn with
  | nil =>
      have none : storeEntries [] = IndexLibraries.empty := rfl
      rw [none, IndexLibraries.cursor_empty]
      simp [lastStored]
  | append_singleton entries entry ih =>
      rw [storeEntries_concat, addDecidedBlock, IndexLibraries.mem_cursor_put,
        ih]
      constructor
      · rintro (rfl | ⟨⟨height, old, stored, rfl⟩, otherKey⟩)
        · refine ⟨entry.height, entry, ?_, rfl⟩
          rw [lastStored_concat, if_pos rfl]
        · refine ⟨height, old, ?_, rfl⟩
          have other : entry.height ≠ height := by
            rintro rfl
            exact otherKey rfl
          rw [lastStored_concat, if_neg other, stored]
      · rintro ⟨height, last, stored, rfl⟩
        rw [lastStored_concat] at stored
        split at stored
        · rename_i same
          subst same
          cases stored
          exact .inl rfl
        · rename_i other
          refine .inr ⟨⟨height, last, stored, rfl⟩, ?_⟩
          intro sameKey
          exact other (writeUnsignedBigEndian_injective sameKey).symm

/-- The lookup returns the stored hash, and the whole value as an id. -/
theorem getDecidedHashIdPair_storeEntries (entries : List DecidedEntry)
    (height : UInt64) :
    getDecidedHashIdPair (storeEntries entries) height =
      .ok ((lastStored entries height).map fun entry =>
        (entry.hash, VMBlockID.ofBytes entry.value)) := by
  unfold getDecidedHashIdPair getDecidedHashIdBytes
  rw [get_storeEntries]
  cases lastStored entries height with
  | none => rfl
  | some entry =>
      simp [DecidedEntry.value, getHashFromLmdbValue_append, bind, Except.bind,
        pure, Except.pure]

/-- The lookup finds a height exactly when the cursor visits it. -/
theorem lookup_visited (entries : List DecidedEntry) (height : UInt64) :
    (∃ found, getDecidedHashIdPair (storeEntries entries) height =
      .ok (some found)) ↔
    ∃ row ∈ IndexLibraries.cursor (storeEntries entries),
      readUnsignedBigEndian row.1 = height := by
  rw [getDecidedHashIdPair_storeEntries]
  constructor
  · rintro ⟨found, result⟩
    obtain ⟨entry, stored, -⟩ := Option.map_eq_some_iff.mp (Except.ok.inj result)
    refine ⟨_, (mem_cursor_storeEntries entries _).mpr
      ⟨height, entry, stored, rfl⟩, ?_⟩
    exact IndexLibraries.readUnsignedBigEndian_write height
  · rintro ⟨row, member, keyEq⟩
    obtain ⟨other, entry, stored, rfl⟩ :=
      (mem_cursor_storeEntries entries row).mp member
    obtain rfl : other = height :=
      (IndexLibraries.readUnsignedBigEndian_write other).symm.trans keyEq
    rw [stored]
    exact ⟨_, rfl⟩

omit [LookupLibraries] in
/-- An id is never the whole value of its row. -/
theorem DecidedEntry.ofBytes_value_ne (entry : DecidedEntry) :
    VMBlockID.ofBytes entry.value ≠ entry.id := by
  intro same
  cases idEq : entry.id with
  | none =>
      rw [idEq] at same
      cases same
  | some bytes =>
      rw [idEq, DecidedEntry.value, idEq] at same
      have lengths := congrArg List.length (Option.some.inj same)
      rw [List.length_append, entry.hash.size] at lengths
      change 32 + bytes.length = bytes.length at lengths
      omega

omit [LookupLibraries] in
theorem lastStored_eq_none_iff (entries : List DecidedEntry)
    (height : UInt64) :
    lastStored entries height = none ↔
      ∀ entry ∈ entries, entry.height ≠ height := by
  simp [lastStored]

end HotstuffLMDB

/-- The two readers agree on a height exactly when nothing is stored for it. -/
theorem readers_agree_iff (entries : List HotstuffLMDB.DecidedEntry)
    (height : UInt64) :
    HotstuffLMDB.ReadersAgree entries height ↔
      ∀ entry ∈ entries, entry.height ≠ height := by
  rw [← HotstuffLMDB.lastStored_eq_none_iff]
  constructor
  · intro agree
    cases stored : HotstuffLMDB.lastStored entries height with
    | none => rfl
    | some entry =>
        have found := agree.lookedUp entry stored
        rw [HotstuffLMDB.getDecidedHashIdPair_storeEntries, stored] at found
        have sameId := (Prod.mk.inj (Option.some.inj (Except.ok.inj found))).2
        exact (entry.ofBytes_value_ne sameId).elim
  · intro absent
    refine ⟨HotstuffLMDB.lookup_visited entries height, ?_, ?_⟩
    · intro entry stored
      rw [absent] at stored
      cases stored
    · intro entry stored
      rw [absent] at stored
      cases stored

end Lookup

/-! ### One stored block -/

namespace Symbolic

theorem lookup_filter_ne {key other : List UInt8} (different : other ≠ key)
    (rows : List (List UInt8 × List UInt8)) :
    (rows.filter (·.1 ≠ key)).lookup other = rows.lookup other := by
  induction rows with
  | nil => rfl
  | cons row rows ih =>
      obtain ⟨head, value⟩ := row
      rw [List.filter_cons, List.lookup_cons, ← ih]
      by_cases same : head = key
      · subst same
        have skipped : (other == head) = false := by simpa using different
        simp [skipped]
      · simp [same, List.lookup_cons]

scoped instance lookupLibraries : LookupLibraries where
  toIndexLibraries := indexLibraries
  get := fun rows key => List.lookup key rows
  get_empty := fun _ => rfl
  get_put := by
    intro rows key value other
    change List.lookup other ((key, value) :: rows.filter (·.1 ≠ key)) = _
    rw [List.lookup_cons]
    split
    · rename_i same
      rw [if_pos (by simpa using same)]
    · rename_i different
      have different : other ≠ key := by simpa using different
      rw [if_neg different, lookup_filter_ne different]

/-- A block at height one whose id is the byte seven. -/
def storedBlock : HotstuffLMDB.DecidedEntry := ⟨1, zeroArray, some [7]⟩

end Symbolic

open scoped Symbolic in
open Symbolic HotstuffLMDB in
/-- The cursor returns the id, and the lookup returns the hash in front of
it. -/
theorem readers_disagree_storedBlock :
    (∃ row ∈ IndexLibraries.cursor (storeEntries [storedBlock]),
      getHsHashAndVmData row = .ok (zeroArray, some [7])) ∧
      getDecidedHashIdPair (storeEntries [storedBlock]) 1 =
        .ok (some (zeroArray, some (zeroArray.bytes ++ [7]))) ∧
      ¬ ReadersAgree [storedBlock] 1 := by
  have stored : lastStored [storedBlock] 1 = some storedBlock := rfl
  have lookedUp : getDecidedHashIdPair (storeEntries [storedBlock]) 1 =
      .ok (some (zeroArray, some (zeroArray.bytes ++ [7]))) := by
    rw [getDecidedHashIdPair_storeEntries, stored]
    rfl
  refine ⟨⟨_, (mem_cursor_storeEntries _ _).mpr ⟨1, storedBlock, stored, rfl⟩,
    getHsHashAndVmData_row _ zeroArray (some [7])⟩, lookedUp, ?_⟩
  intro agree
  have found := agree.lookedUp storedBlock stored
  rw [lookedUp] at found
  have sameId := (Prod.mk.inj (Option.some.inj (Except.ok.inj found))).2
  have sameLength := congrArg List.length (Option.some.inj sameId)
  cases sameLength

end Hotstuff
