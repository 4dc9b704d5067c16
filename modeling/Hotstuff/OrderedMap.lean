import Mathlib.Data.List.Pairwise
import Mathlib.Data.Finset.Card
import Mathlib.Order.Basic

/-!
# Key-ordered maps

Association lists kept in strictly increasing key order, the observable
behaviour of an ordered map whose iteration goes from the lowest key to the
highest.  Insertion is parameterised by what happens to a key that is present
already, so that one set of lemmas serves both insertion that keeps the old
value and insertion that overwrites it.
-/

namespace Hotstuff

/-- A finite map from natural-number keys, iterated in key order. -/
@[ext]
structure OrderedMap (Value : Type*) where
  entries : List (Nat × Value)
  sorted : entries.Pairwise fun first second => first.1 < second.1

namespace OrderedMap

variable {Value : Type*}

def empty : OrderedMap Value := ⟨[], .nil⟩

def size (map : OrderedMap Value) : Nat := map.entries.length

def find? (map : OrderedMap Value) (key : Nat) : Option Value :=
  map.entries.lookup key

/-- The keys, lowest first. -/
def keys (map : OrderedMap Value) : List Nat := map.entries.map Prod.fst

/-- Insert into an ordered list of entries; `resolve old new` is stored when
the key is present already. -/
def insertEntry (resolve : Value → Value → Value) (key : Nat) (value : Value) :
    List (Nat × Value) → List (Nat × Value)
  | [] => [(key, value)]
  | (other, old) :: rest =>
      if key < other then (key, value) :: (other, old) :: rest
      else if key = other then (key, resolve old value) :: rest
      else (other, old) :: insertEntry resolve key value rest

theorem mem_keys_insertEntry (resolve : Value → Value → Value)
    (key : Nat) (value : Value) (entries : List (Nat × Value)) (other : Nat) :
    other ∈ (insertEntry resolve key value entries).map Prod.fst ↔
      other = key ∨ other ∈ entries.map Prod.fst := by
  induction entries with
  | nil => simp [insertEntry]
  | cons entry rest ih =>
      obtain ⟨head, old⟩ := entry
      simp only [insertEntry]
      split
      · simp
      · split
        · rename_i equal
          subst equal
          simp
        · simp only [List.map_cons, List.mem_cons, ih]
          tauto

theorem insertEntry_sorted (resolve : Value → Value → Value)
    (key : Nat) (value : Value) {entries : List (Nat × Value)}
    (sorted : entries.Pairwise fun first second => first.1 < second.1) :
    (insertEntry resolve key value entries).Pairwise
      fun first second => first.1 < second.1 := by
  induction sorted with
  | nil => simp [insertEntry]
  | @cons entry rest headLess tail ih =>
      obtain ⟨head, old⟩ := entry
      simp only [insertEntry]
      split
      · rename_i less
        refine List.pairwise_cons.mpr ⟨?_, List.pairwise_cons.mpr ⟨headLess, tail⟩⟩
        intro other member
        rcases List.mem_cons.mp member with rfl | later
        · exact less
        · exact less.trans (headLess other later)
      · split
        · rename_i equal
          subst equal
          exact List.pairwise_cons.mpr ⟨headLess, tail⟩
        · refine List.pairwise_cons.mpr ⟨?_, ih⟩
          intro other member
          have keyMem : other.1 ∈
              (insertEntry resolve key value rest).map Prod.fst :=
            List.mem_map_of_mem member
          rcases (mem_keys_insertEntry resolve key value rest other.1).mp
            keyMem with equal | later
          · simp only at equal ⊢
            omega
          · obtain ⟨original, originalMem, sameKey⟩ := List.mem_map.mp later
            rw [← sameKey]
            exact headLess original originalMem

/-- Insertion with a rule for keys that are present already. -/
def insertWith (resolve : Value → Value → Value) (map : OrderedMap Value)
    (key : Nat) (value : Value) : OrderedMap Value :=
  ⟨insertEntry resolve key value map.entries,
    insertEntry_sorted resolve key value map.sorted⟩

/-- Insertion that keeps the value of a key that is present already. -/
def emplace (map : OrderedMap Value) (key : Nat) (value : Value) :
    OrderedMap Value :=
  map.insertWith (fun old _ => old) key value

/-- Insertion that overwrites the value of a key that is present already. -/
def put (map : OrderedMap Value) (key : Nat) (value : Value) :
    OrderedMap Value :=
  map.insertWith (fun _ new => new) key value

@[simp]
theorem mem_keys_insertWith (resolve : Value → Value → Value)
    (map : OrderedMap Value) (key : Nat) (value : Value) (other : Nat) :
    other ∈ (map.insertWith resolve key value).keys ↔
      other = key ∨ other ∈ map.keys :=
  mem_keys_insertEntry resolve key value map.entries other

theorem keys_nodup (map : OrderedMap Value) : map.keys.Nodup := by
  have ordered : map.keys.Pairwise (· < ·) :=
    List.pairwise_map.mpr map.sorted
  exact ordered.imp Nat.ne_of_lt

@[simp]
theorem length_keys (map : OrderedMap Value) : map.keys.length = map.size := by
  simp [keys, size]

theorem card_keys (map : OrderedMap Value) :
    map.keys.toFinset.card = map.size := by
  rw [List.toFinset_card_of_nodup map.keys_nodup, length_keys]

theorem find?_eq_some_iff {map : OrderedMap Value} {key : Nat}
    {value : Value} :
    map.find? key = some value ↔ (key, value) ∈ map.entries := by
  obtain ⟨entries, sorted⟩ := map
  simp only [find?]
  induction sorted with
  | nil => simp
  | @cons entry rest headLess _ ih =>
      obtain ⟨head, old⟩ := entry
      by_cases same : key = head
      · subst same
        simp only [List.lookup_cons, beq_self_eq_true, Option.some.injEq,
          List.mem_cons, Prod.mk.injEq, true_and]
        constructor
        · rintro rfl
          exact .inl rfl
        · rintro (rfl | later)
          · rfl
          · exact absurd (headLess (key, value) later) (Nat.lt_irrefl key)
      · have notBeq : (key == head) = false := by simpa using same
        simp [List.lookup_cons, notBeq, same, ih]

theorem find?_isSome_iff {map : OrderedMap Value} {key : Nat} :
    (map.find? key).isSome ↔ key ∈ map.keys := by
  rw [Option.isSome_iff_exists]
  simp only [find?_eq_some_iff, keys, List.mem_map, Prod.exists,
    exists_and_right, exists_eq_right]

theorem find?_eq_none_iff {map : OrderedMap Value} {key : Nat} :
    map.find? key = none ↔ key ∉ map.keys := by
  rw [← find?_isSome_iff, Option.not_isSome_iff_eq_none]

/-- An entry of the extended map is the new one or an old one. -/
theorem mem_insertEntry {resolve : Value → Value → Value}
    {key : Nat} {value : Value} {entries : List (Nat × Value)}
    {entry : Nat × Value}
    (member : entry ∈ insertEntry resolve key value entries) :
    entry ∈ entries ∨ entry.1 = key ∧
      (entry.2 = value ∨ ∃ old, (key, old) ∈ entries ∧
        entry.2 = resolve old value) := by
  induction entries with
  | nil =>
      simp only [insertEntry, List.mem_singleton] at member
      subst member
      exact .inr ⟨rfl, .inl rfl⟩
  | cons head rest ih =>
      obtain ⟨other, old⟩ := head
      simp only [insertEntry] at member
      split at member
      · rcases List.mem_cons.mp member with rfl | later
        · exact .inr ⟨rfl, .inl rfl⟩
        · exact .inl later
      · split at member
        · rename_i equal
          subst equal
          rcases List.mem_cons.mp member with rfl | later
          · exact .inr ⟨rfl, .inr ⟨old, by simp, rfl⟩⟩
          · exact .inl (List.mem_cons_of_mem _ later)
        · rcases List.mem_cons.mp member with rfl | later
          · exact .inl (by simp)
          · rcases ih later with old' | ⟨sameKey, new | ⟨old', oldMem, resolved⟩⟩
            · exact .inl (List.mem_cons_of_mem _ old')
            · exact .inr ⟨sameKey, .inl new⟩
            · exact .inr ⟨sameKey, .inr
                ⟨old', List.mem_cons_of_mem _ oldMem, resolved⟩⟩

/-- `emplace` adds at most the given entry. -/
theorem mem_emplace {map : OrderedMap Value} {key : Nat} {value : Value}
    {entry : Nat × Value} (member : entry ∈ (map.emplace key value).entries) :
    entry ∈ map.entries ∨ entry = (key, value) := by
  rcases mem_insertEntry member with old | ⟨sameKey, new | ⟨old, oldMem, kept⟩⟩
  · exact .inl old
  · exact .inr (Prod.ext sameKey new)
  · refine .inl ?_
    have same : entry = (key, old) := Prod.ext sameKey kept
    rwa [same]

/-- `emplace` keeps every entry. -/
theorem mem_emplace_of_mem {map : OrderedMap Value} (key : Nat)
    (value : Value) {entry : Nat × Value} (member : entry ∈ map.entries) :
    entry ∈ (map.emplace key value).entries := by
  obtain ⟨entries, sorted⟩ := map
  change entry ∈ entries at member
  change entry ∈ insertEntry (fun old _ => old) key value entries
  clear sorted
  induction entries with
  | nil => cases member
  | cons head rest ih =>
      obtain ⟨other, old⟩ := head
      simp only [insertEntry]
      split
      · exact List.mem_cons_of_mem _ member
      · split
        · rename_i same
          subst same
          exact member
        · rcases List.mem_cons.mp member with rfl | later
          · exact List.mem_cons_self
          · exact List.mem_cons_of_mem _ (ih later)

theorem find?_emplace (map : OrderedMap Value) (key : Nat) (value : Value)
    (other : Nat) :
    (map.emplace key value).find? other =
      if other = key then some ((map.find? key).getD value)
      else map.find? other := by
  have present : ((map.emplace key value).find? other).isSome ↔
      other = key ∨ other ∈ map.keys :=
    find?_isSome_iff.trans (mem_keys_insertWith _ map key value other)
  cases old : map.find? other with
  | some kept =>
      have member : (other, kept) ∈ map.entries := find?_eq_some_iff.mp old
      rw [find?_eq_some_iff.mpr (mem_emplace_of_mem key value member)]
      split
      · rename_i same
        subst same
        rw [old]
        rfl
      · rfl
  | none =>
      have absent : other ∉ map.keys := find?_eq_none_iff.mp old
      split
      · rename_i same
        subst same
        obtain ⟨stored, found⟩ :=
          Option.isSome_iff_exists.mp (present.mpr (.inl rfl))
        have member := find?_eq_some_iff.mp found
        rcases mem_emplace member with kept | new
        · exact absurd (List.mem_map_of_mem kept) absent
        · rw [found, old, (Prod.mk.inj new).2]
          rfl
      · rename_i different
        rw [← Option.not_isSome_iff_eq_none, present]
        simp [different, absent]

/-- Two maps with the same entries are equal. -/
theorem ext_find? {first second : OrderedMap Value}
    (same : ∀ key, first.find? key = second.find? key) : first = second := by
  have distinct : ∀ map : OrderedMap Value, map.entries.Nodup := fun map =>
    map.keys_nodup.of_map Prod.fst
  have permuted : first.entries.Perm second.entries := by
    refine (List.perm_ext_iff_of_nodup (distinct first)
      (distinct second)).mpr ?_
    intro entry
    rw [← find?_eq_some_iff, ← find?_eq_some_iff, same]
  apply OrderedMap.ext
  refine permuted.eq_of_pairwise ?_ first.sorted second.sorted
  intro a b _ _ less greater
  exact absurd less (Nat.lt_asymm greater)

/-- A key above all others is inserted at the end. -/
theorem insertEntry_append (resolve : Value → Value → Value)
    (key : Nat) (value : Value) {entries : List (Nat × Value)}
    (above : ∀ entry ∈ entries, entry.1 < key) :
    insertEntry resolve key value entries = entries ++ [(key, value)] := by
  induction entries with
  | nil => rfl
  | cons head rest ih =>
      obtain ⟨other, old⟩ := head
      have less : other < key := above (other, old) (by simp)
      simp only [insertEntry, if_neg (Nat.lt_asymm less),
        if_neg (Nat.ne_of_gt less), List.cons_append]
      rw [ih fun entry member => above entry (List.mem_cons_of_mem _ member)]

/-- Entries that come in ascending order above all present ones are appended. -/
theorem entries_foldl_put (map : OrderedMap Value)
    (added : List (Nat × Value))
    (ordered : (map.entries ++ added).Pairwise
      fun first second => first.1 < second.1) :
    (added.foldl (fun map entry => map.put entry.1 entry.2) map).entries =
      map.entries ++ added := by
  induction added generalizing map with
  | nil => simp
  | cons entry added ih =>
      have above : ∀ old ∈ map.entries, old.1 < entry.1 := fun old member =>
        (List.pairwise_append.mp ordered).2.2 old member entry (by simp)
      have inserted : (map.put entry.1 entry.2).entries =
          map.entries ++ [entry] :=
        insertEntry_append _ entry.1 entry.2 above
      rw [List.foldl_cons, ih _ (by simpa [inserted] using ordered), inserted]
      simp

end OrderedMap

end Hotstuff
