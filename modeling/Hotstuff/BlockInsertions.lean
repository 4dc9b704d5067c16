import Hotstuff.ParentChain
import Hotstuff.SymbolicCrypto
import Hotstuff.TransitionSystem

/-!
# Sequences of insertions

The block store on its own: block objects are created from any wire blocks, and
objects that exist are handed to `insert_block` in any order and any number of
times.  Several objects may carry one header, dependencies may be missing, and a
justify block may lie anywhere.
-/

namespace Hotstuff

section Insertions

variable [WireTypes] [Externals]

namespace BlockStore

inductive Insertion
  /-- a block object is made from a received or minted wire block -/
  | create (wireBlock : HotstuffBlockWire) (proposer : ReplicaID)
  | insert (p : BlockPtr)

/-- Any object but genesis can be inserted. -/
def CanInsert (store : BlockStore) : Insertion → Prop
  | .create _ _ => True
  | .insert p => p ≠ 0 ∧ p < store.heap.length

instance decidableCanInsert (store : BlockStore) :
    (insertion : Insertion) → Decidable (store.CanInsert insertion)
  | .create _ _ => inferInstanceAs (Decidable True)
  | .insert _ => inferInstanceAs (Decidable (_ ∧ _))

def perform (store : BlockStore) : Insertion → BlockStore
  | .create wireBlock proposer => (store.alloc (.new wireBlock proposer)).1
  | .insert p => (store.insertBlock p).1

end BlockStore

/-- The stores that insertions build from the genesis block. -/
def insertionSystem :
    TransitionSystem BlockStore BlockStore.Insertion where
  initial := fun store => store = .init
  enabled := BlockStore.CanInsert
  next := BlockStore.perform

instance decidableInsertionEnabled (store : BlockStore)
    (insertion : BlockStore.Insertion) :
    Decidable (insertionSystem.enabled store insertion) :=
  BlockStore.decidableCanInsert store insertion

namespace BlockStore

theorem wellFormed_of_insertions {store : BlockStore}
    (reached : insertionSystem.Reachable store) : store.WellFormed := by
  refine reached.invariant WellFormed ?_ ?_
  · rintro start rfl
    exact wellFormed_init
  · intro state insertion _ valid allowed
    cases insertion with
    | create wireBlock proposer => exact valid.alloc rfl
    | insert p => exact (valid.insertBlock allowed.1 allowed.2).1

variable {store : BlockStore}

omit [Externals] in
/-- Parents are unique, so two chains of one length end at one block. -/
theorem Chain.unique {p first second : BlockPtr}
    {passed passed' : List BlockPtr} (chain : store.Chain p passed first)
    (chain' : store.Chain p passed' second)
    (sameLength : passed.length = passed'.length) : first = second := by
  induction chain generalizing passed' with
  | here p =>
      cases chain' with
      | here => rfl
      | up edge rest => simp at sameLength
  | up edge rest ih =>
      cases chain' with
      | here => simp at sameLength
      | up edge' rest' =>
          obtain rfl := Option.some.inj (edge.symm.trans edge')
          apply ih rest'
          simpa using sameLength

/-- A walk ends at the only ancestor of the height at which it stops. -/
theorem WellFormed.walk_unique (valid : store.WellFormed) {p : BlockPtr}
    {bound : Nat} (high : bound ≤ store.height p) :
    ∃ passed last,
      store.walk bound (store.height p) p = some (passed, last) ∧
        store.Chain p passed last ∧ store.height last = bound ∧
        ∀ other passed', store.Chain p passed' other →
          store.height other = bound → other = last := by
  obtain ⟨passed, last, walked, chain, arrived, -⟩ := valid.walk_spec high
  refine ⟨passed, last, walked, chain, arrived, ?_⟩
  intro other passed' chain' sameHeight
  apply chain'.unique chain
  have := valid.chain_height chain
  have := valid.chain_height chain'
  omega

/-- Inserting an object whose hash is stored changes no stored block and no
entry of the index. -/
theorem WellFormed.insertBlock_present (valid : store.WellFormed)
    {p : BlockPtr} (notGenesis : p ≠ 0)
    (present : (store.getBlock (store.hash p)).isSome) (hash : Hash) :
    (store.insertBlock p).1.getBlock hash = store.getBlock hash ∧
      ∀ q, store.getBlock hash = some q →
        (store.insertBlock p).1.block q = store.block q := by
  rcases insertBlock_cases store p with
    ⟨parent, justify, parentFound, justifyFound, result, -⟩ | ⟨-, result, -⟩
  swap
  · rw [result]
    exact ⟨rfl, fun _ _ => rfl⟩
  rw [result]
  constructor
  · rw [getBlock_addLinked, if_neg]
    rintro ⟨-, absent⟩
    rw [absent] at present
    cases present
  · intro q stored
    rw [block_addLinked]
    split
    · -- the stored object itself gets the links that it already has
      rename_i same
      obtain ⟨rfl, -⟩ := same
      have linked := (valid.cacheSound hash p stored).2.resolve_left notGenesis
      obtain ⟨above, edge, proper⟩ := valid.parent_of_linked linked
      obtain ⟨certified, names, found⟩ := proper.justifyStored
      obtain rfl : above = parent :=
        Option.some.inj (proper.parentStored.symm.trans parentFound)
      obtain rfl : certified = justify :=
        Option.some.inj (found.symm.trans justifyFound)
      rw [← edge, ← names, ← proper.heightEq]
      rfl
    · rfl

end BlockStore

/-- Every stored block is keyed by its hash, linked to the stored blocks that
its header names and one level below its parent, and its parent chain reaches
genesis in as many steps as its height.  The walks along parents end at the
unique ancestor of the height at which they stop.  An insertion with a missing
dependency changes nothing, and inserting a stored hash again changes no stored
block. -/
theorem blockTree_of_insertions {store : BlockStore}
    (reached : insertionSystem.Reachable store) :
    (∀ hash p, store.getBlock hash = some p →
      store.hash p = hash ∧
      (p = 0 ∨ ∃ parent justify,
        (store.block p).parentBlockPtr = some parent ∧
        store.getBlock (store.block p).getParentHash = some parent ∧
        (store.block p).justifyBlockPtr = some justify ∧
        store.getBlock (store.block p).getJustifyHash = some justify ∧
        store.height p = store.height parent + 1) ∧
      (∃ passed, store.Chain p passed 0 ∧ passed.length = store.height p) ∧
      ∀ bound ≤ store.height p, ∃ passed last,
        store.walk bound (store.height p) p = some (passed, last) ∧
        store.Chain p passed last ∧ store.height last = bound ∧
        ∀ other passed', store.Chain p passed' other →
          store.height other = bound → other = last) ∧
    ∀ p, p ≠ 0 → p < store.heap.length →
      ((store.insertBlock p).2.any = true → (store.insertBlock p).1 = store) ∧
      ((store.getBlock (store.hash p)).isSome → ∀ hash,
        (store.insertBlock p).1.getBlock hash = store.getBlock hash ∧
        ∀ q, store.getBlock hash = some q →
          (store.insertBlock p).1.block q = store.block q) := by
  have valid := BlockStore.wellFormed_of_insertions reached
  constructor
  · intro hash p stored
    obtain ⟨keyed, placed⟩ := valid.cacheSound hash p stored
    refine ⟨keyed, ?_, valid.chain_genesis placed,
      fun bound high => valid.walk_unique high⟩
    rcases placed with genesis | linked
    · exact Or.inl genesis
    · obtain ⟨parent, edge, proper⟩ := valid.parent_of_linked linked
      obtain ⟨justify, names, found⟩ := proper.justifyStored
      exact Or.inr ⟨parent, justify, edge, proper.parentStored, names, found,
        proper.heightEq⟩
  · intro p notGenesis _
    refine ⟨?_, fun present hash =>
      valid.insertBlock_present notGenesis present hash⟩
    intro missing
    rcases BlockStore.insertBlock_cases store p with
      ⟨-, -, -, -, -, complete⟩ | ⟨-, unchanged, -⟩
    · rw [complete] at missing
      cases missing
    · exact unchanged

end Insertions

/-! ### A concrete sequence -/

namespace Symbolic

open scoped Symbolic

/-- An empty block on a parent, with the certificate of genesis. -/
def emptyOn (parentHash : Hash) : HotstuffBlockWire :=
  (HotstuffBlock.mintBlock [] HotstuffBlock.genesisBlock.selfQc.serialize
    parentHash 0).wireBlock

def firstHash : Hash := hashHeader (emptyOn zeroHash).header

def secondHash : Hash := hashHeader (emptyOn firstHash).header

/-- The child arrives before its parent, and the parent in two copies. -/
def childFirst : List BlockStore.Insertion :=
  [.create (emptyOn firstHash) 1, .insert 1, .create (emptyOn zeroHash) 1,
    .insert 2, .create (emptyOn zeroHash) 2, .insert 3, .insert 1]

end Symbolic

open scoped Symbolic in
theorem blockTree_childFirst :
    ∃ store, insertionSystem.Reachable store ∧
      store.getBlock Symbolic.secondHash = some 1 ∧ store.height 1 = 2 ∧
      ∃ passed, store.Chain 1 passed 0 ∧ passed.length = 2 := by
  have reached : insertionSystem.Reachable
      (insertionSystem.run .init Symbolic.childFirst) := by
    refine .run (.initial rfl) ?_
    decide +kernel
  have stored : (insertionSystem.run .init Symbolic.childFirst).getBlock
      Symbolic.secondHash = some 1 := by
    decide +kernel
  have height : (insertionSystem.run .init Symbolic.childFirst).height 1 =
      2 := by
    decide +kernel
  obtain ⟨-, -, ⟨passed, chain, length⟩, -⟩ :=
    (blockTree_of_insertions reached).1 Symbolic.secondHash 1 stored
  exact ⟨_, reached, stored, height, passed, chain, length.trans height⟩

end Hotstuff
