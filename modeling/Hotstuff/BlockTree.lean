import Hotstuff.BlockStore

/-!
# The tree of linked blocks

`WellFormed` says what every sequence of block store operations establishes:
a stored block is keyed by its hash, and a linked block points to the stored
parent and justify blocks named in its header, one level below its parent.  The
heights that the store computes are therefore the levels of the hashes in the
forest of headers, whatever the order in which blocks arrive.
-/

namespace Hotstuff

variable [WireTypes]

namespace BlockStore

/-- The block has a place in the tree: it is genesis or linked. -/
def Placed (store : BlockStore) (p : BlockPtr) : Prop :=
  p = 0 ∨ (store.block p).Linked

/-- The block is the object kept for its hash. -/
def Stored (store : BlockStore) (p : BlockPtr) : Prop :=
  store.getBlock (store.hash p) = some p

/-- The second store has the same blocks at the same places as the first. -/
structure SameTree (first second : BlockStore) : Prop where
  length : second.heap.length = first.heap.length
  cache : second.blockCache = first.blockCache
  links : ∀ p, (second.block p).links = (first.block p).links

/-- The second store keeps all blocks of the first and may have more. -/
structure Extends (first second : BlockStore) : Prop where
  length : first.heap.length ≤ second.heap.length
  identity : ∀ p < first.heap.length,
    second.hash p = first.hash p ∧
      (second.block p).wireBlock.header = (first.block p).wireBlock.header ∧
      (second.block p).parsedQc = (first.block p).parsedQc
  links : ∀ p, first.Placed p →
    (second.block p).links = (first.block p).links
  cache : ∀ hash p, first.getBlock hash = some p →
    second.getBlock hash = some p

theorem hash_of_links {first second : BlockStore} {p : BlockPtr}
    (same : (second.block p).links = (first.block p).links) :
    second.hash p = first.hash p :=
  congrArg HotstuffBlock.Links.hash same

theorem height_of_links {first second : BlockStore} {p : BlockPtr}
    (same : (second.block p).links = (first.block p).links) :
    second.height p = first.height p :=
  congrArg HotstuffBlock.Links.blockHeight same

theorem linked_of_links {first second : HotstuffBlock}
    (same : second.links = first.links) : second.Linked ↔ first.Linked := by
  have parentEq := congrArg HotstuffBlock.Links.parentBlockPtr same
  change second.parentBlockPtr = first.parentBlockPtr at parentEq
  rw [HotstuffBlock.Linked, HotstuffBlock.Linked, parentEq]

theorem SameTree.refl (store : BlockStore) : SameTree store store :=
  ⟨rfl, rfl, fun _ => rfl⟩

theorem SameTree.trans {first second third : BlockStore}
    (upper : SameTree first second) (lower : SameTree second third) :
    SameTree first third :=
  ⟨lower.length.trans upper.length, lower.cache.trans upper.cache,
    fun p => (lower.links p).trans (upper.links p)⟩

theorem SameTree.symm {first second : BlockStore}
    (same : SameTree first second) : SameTree second first :=
  ⟨same.length.symm, same.cache.symm, fun p => (same.links p).symm⟩

theorem SameTree.getBlock {first second : BlockStore}
    (same : SameTree first second) (hash : Hash) :
    second.getBlock hash = first.getBlock hash := by
  rw [BlockStore.getBlock, same.cache, BlockStore.getBlock]

theorem SameTree.hash {first second : BlockStore}
    (same : SameTree first second) (p : BlockPtr) :
    second.hash p = first.hash p :=
  hash_of_links (same.links p)

theorem SameTree.height {first second : BlockStore}
    (same : SameTree first second) (p : BlockPtr) :
    second.height p = first.height p :=
  height_of_links (same.links p)

theorem SameTree.parentBlockPtr {first second : BlockStore}
    (same : SameTree first second) (p : BlockPtr) :
    (second.block p).parentBlockPtr = (first.block p).parentBlockPtr :=
  congrArg HotstuffBlock.Links.parentBlockPtr (same.links p)

theorem SameTree.justifyBlockPtr {first second : BlockStore}
    (same : SameTree first second) (p : BlockPtr) :
    (second.block p).justifyBlockPtr = (first.block p).justifyBlockPtr :=
  congrArg HotstuffBlock.Links.justifyBlockPtr (same.links p)

theorem SameTree.header {first second : BlockStore}
    (same : SameTree first second) (p : BlockPtr) :
    (second.block p).wireBlock.header = (first.block p).wireBlock.header :=
  congrArg HotstuffBlock.Links.header (same.links p)

theorem SameTree.placed {first second : BlockStore}
    (same : SameTree first second) (p : BlockPtr) :
    second.Placed p ↔ first.Placed p :=
  or_congr_right (linked_of_links (same.links p))

theorem SameTree.stored {first second : BlockStore}
    (same : SameTree first second) (p : BlockPtr) :
    second.Stored p ↔ first.Stored p := by
  rw [Stored, Stored, same.getBlock, same.hash]

theorem SameTree.extends {first second : BlockStore}
    (same : SameTree first second) : Extends first second where
  length := same.length.ge
  identity := fun p _ =>
    ⟨same.hash p, congrArg HotstuffBlock.Links.header (same.links p),
      congrArg HotstuffBlock.Links.parsedQc (same.links p)⟩
  links := fun p _ => same.links p
  cache := fun hash _ found => (same.getBlock hash).trans found

/-- Changes that leave the links of a block alone leave the tree alone. -/
theorem sameTree_modifyBlock (store : BlockStore) (p : BlockPtr)
    {change : HotstuffBlock → HotstuffBlock}
    (kept : ∀ block, (change block).links = block.links) :
    SameTree store (store.modifyBlock p change) where
  length := length_modifyBlock store p change
  cache := rfl
  links := property_modifyBlock HotstuffBlock.links change kept store p

theorem Extends.refl (store : BlockStore) : Extends store store :=
  (SameTree.refl store).extends

theorem Extends.placed {first second : BlockStore}
    (longer : Extends first second) {p : BlockPtr} (placed : first.Placed p) :
    second.Placed p := by
  have links := longer.links p placed
  exact placed.imp_right (linked_of_links links).mpr

theorem Extends.trans {first second third : BlockStore}
    (upper : Extends first second) (lower : Extends second third) :
    Extends first third where
  length := upper.length.trans lower.length
  identity := by
    intro p bound
    obtain ⟨hash, header, parsed⟩ := upper.identity p bound
    obtain ⟨hash', header', parsed'⟩ :=
      lower.identity p (bound.trans_le upper.length)
    exact ⟨hash'.trans hash, header'.trans header, parsed'.trans parsed⟩
  links := fun p placed =>
    (lower.links p (upper.placed placed)).trans (upper.links p placed)
  cache := fun hash p found => lower.cache hash p (upper.cache hash p found)

theorem Extends.hash {first second : BlockStore}
    (longer : Extends first second) {p : BlockPtr} (placed : first.Placed p) :
    second.hash p = first.hash p :=
  hash_of_links (longer.links p placed)

theorem Extends.height {first second : BlockStore}
    (longer : Extends first second) {p : BlockPtr} (placed : first.Placed p) :
    second.height p = first.height p :=
  height_of_links (longer.links p placed)

theorem Extends.stored {first second : BlockStore}
    (longer : Extends first second) {p : BlockPtr} (placed : first.Placed p)
    (stored : first.Stored p) : second.Stored p := by
  rw [Stored, longer.hash placed]
  exact longer.cache _ _ stored

end BlockStore

variable [Externals]

namespace BlockStore

/-- The links of a linked block lead to the stored parent and justify blocks
named in its header. -/
structure ProperlyLinked (store : BlockStore) (p parent : BlockPtr) :
    Prop where
  parentStored : store.getBlock (store.block p).getParentHash = some parent
  heightEq : store.height p = store.height parent + 1
  justifyStored : ∃ justify, (store.block p).justifyBlockPtr = some justify ∧
    store.getBlock (store.block p).getJustifyHash = some justify

/-- The invariant of the block store. -/
structure WellFormed (store : BlockStore) : Prop where
  nonempty : 0 < store.heap.length
  genesis : (store.block 0).links = HotstuffBlock.genesisBlock.links
  hashed : ∀ p, p ≠ 0 → p < store.heap.length →
    store.hash p = hashHeader (store.block p).wireBlock.header ∧
      (store.block p).parsedQc =
        some (.ofWire (store.block p).wireBlock.header.qc)
  cacheGenesis : store.getBlock zeroHash = some 0
  cacheSound : ∀ hash p, store.getBlock hash = some p →
    store.hash p = hash ∧ store.Placed p
  linked : ∀ p parent, (store.block p).parentBlockPtr = some parent →
    store.ProperlyLinked p parent
  unlinked : ∀ p, (store.block p).parentBlockPtr = none →
    (store.block p).justifyBlockPtr = none ∧ store.height p = 0
  linkedCached : ∀ p, (store.block p).Linked →
    (store.getBlock (store.hash p)).isSome

namespace WellFormed

variable {store : BlockStore} (valid : store.WellFormed)

include valid

theorem genesis_parent : (store.block 0).parentBlockPtr = none :=
  congrArg HotstuffBlock.Links.parentBlockPtr valid.genesis

theorem genesis_hash : store.hash 0 = zeroHash :=
  congrArg HotstuffBlock.Links.hash valid.genesis

theorem genesis_height : store.height 0 = 0 :=
  congrArg HotstuffBlock.Links.blockHeight valid.genesis

theorem genesis_stored : store.Stored 0 := by
  rw [Stored, valid.genesis_hash]
  exact valid.cacheGenesis

omit valid [Externals] in
theorem lt_of_linked {p : BlockPtr} (linked : (store.block p).Linked) :
    p < store.heap.length := by
  by_contra outside
  rw [block_of_length_le (Nat.le_of_not_lt outside)] at linked
  cases linked

theorem ne_zero_of_linked {p : BlockPtr} (linked : (store.block p).Linked) :
    p ≠ 0 := by
  rintro rfl
  rw [HotstuffBlock.Linked, valid.genesis_parent] at linked
  cases linked

theorem lt_of_placed {p : BlockPtr} (placed : store.Placed p) :
    p < store.heap.length := by
  rcases placed with rfl | linked
  · exact valid.nonempty
  · exact lt_of_linked linked

/-- The parent of a linked block. -/
theorem parent_of_linked {p : BlockPtr} (linked : (store.block p).Linked) :
    ∃ parent, (store.block p).parentBlockPtr = some parent ∧
      store.ProperlyLinked p parent := by
  obtain ⟨parent, parentEq⟩ := Option.isSome_iff_exists.mp linked
  exact ⟨parent, parentEq, valid.linked p parent parentEq⟩

theorem linked_of_height_pos {p : BlockPtr} (positive : 0 < store.height p) :
    (store.block p).Linked := by
  by_contra notLinked
  have noParent : (store.block p).parentBlockPtr = none := by
    simpa [HotstuffBlock.Linked] using notLinked
  have := (valid.unlinked p noParent).2
  omega

theorem linked_of_justify {p justify : BlockPtr}
    (names : (store.block p).justifyBlockPtr = some justify) :
    (store.block p).Linked := by
  by_contra notLinked
  have noParent : (store.block p).parentBlockPtr = none := by
    simpa [HotstuffBlock.Linked] using notLinked
  rw [(valid.unlinked p noParent).1] at names
  cases names

theorem stored_of_getBlock {hash : Hash} {p : BlockPtr}
    (found : store.getBlock hash = some p) :
    store.Stored p ∧ store.Placed p ∧ store.hash p = hash := by
  obtain ⟨hashEq, placed⟩ := valid.cacheSound hash p found
  refine ⟨?_, placed, hashEq⟩
  rw [Stored, hashEq]
  exact found

omit valid [Externals] in
/-- Stored blocks are determined by their hash. -/
theorem stored_unique {p q : BlockPtr} (first : store.Stored p)
    (second : store.Stored q) (same : store.hash p = store.hash q) :
    p = q := by
  rw [Stored, same] at first
  exact Option.some.inj (first.symm.trans second)

/-- The parent of a block is stored, and its hash is in the header. -/
theorem parent_stored {p parent : BlockPtr}
    (edge : (store.block p).parentBlockPtr = some parent) :
    store.Stored parent ∧ store.Placed parent ∧
      store.hash parent = (store.block p).getParentHash :=
  valid.stored_of_getBlock (valid.linked p parent edge).parentStored

/-- So is its justify block. -/
theorem justify_stored {p justify : BlockPtr}
    (names : (store.block p).justifyBlockPtr = some justify) :
    store.Stored justify ∧ store.Placed justify ∧
      store.hash justify = (store.block p).getJustifyHash := by
  obtain ⟨parent, -, proper⟩ :=
    valid.parent_of_linked (valid.linked_of_justify names)
  obtain ⟨justify', names', found⟩ := proper.justifyStored
  obtain rfl : justify = justify' := Option.some.inj (names.symm.trans names')
  exact valid.stored_of_getBlock found

theorem getJustifyHash_eq {p : BlockPtr} (notGenesis : p ≠ 0)
    (bound : p < store.heap.length) :
    (store.block p).getJustifyHash =
      (store.block p).wireBlock.header.qc.justify := by
  rw [HotstuffBlock.getJustifyHash, HotstuffBlock.getJustifyQc,
    (valid.hashed p notGenesis bound).2]
  exact QuorumCertificate.objHash_ofWire _

end WellFormed

/-! ### Heights are levels in the forest of headers -/

section Forest

variable {store : BlockStore} (collisionFree : CollisionFree)

theorem WellFormed.parent_edge (valid : store.WellFormed)
    {p parent : BlockPtr}
    (edge : (store.block p).parentBlockPtr = some parent) :
    (headerForest collisionFree).parent (store.hash p) =
      some (store.hash parent) := by
  have linked : (store.block p).Linked := by
    rw [HotstuffBlock.Linked, edge]
    rfl
  obtain ⟨hashEq, -⟩ := valid.hashed p (valid.ne_zero_of_linked linked)
    (WellFormed.lt_of_linked linked)
  rw [hashEq, headerForest_parent, (valid.parent_stored edge).2.2]
  rfl

include collisionFree in
theorem WellFormed.justify_edge (valid : store.WellFormed)
    {p justify : BlockPtr}
    (names : (store.block p).justifyBlockPtr = some justify) :
    headerJustify (store.hash p) = some (store.hash justify) := by
  have linked := valid.linked_of_justify names
  have notGenesis := valid.ne_zero_of_linked linked
  have bound := WellFormed.lt_of_linked linked
  rw [(valid.hashed p notGenesis bound).1,
    headerJustify_hashHeader collisionFree, (valid.justify_stored names).2.2,
    valid.getJustifyHash_eq notGenesis bound]

/-- The height of a placed block is the level of its hash. -/
theorem WellFormed.level (valid : store.WellFormed) {p : BlockPtr}
    (placed : store.Placed p) :
    (headerForest collisionFree).Level (store.hash p) (store.height p) := by
  induction size : store.height p generalizing p with
  | zero =>
      rcases placed with rfl | linked
      · rw [valid.genesis_hash]
        exact .root
      · obtain ⟨parent, -, proper⟩ := valid.parent_of_linked linked
        have := proper.heightEq
        omega
  | succ height ih =>
      have linked := valid.linked_of_height_pos (p := p) (by omega)
      obtain ⟨parent, edge, proper⟩ := valid.parent_of_linked linked
      have parentHeight : store.height parent = height := by
        have := proper.heightEq
        omega
      exact .child (valid.parent_edge collisionFree edge)
        (ih (valid.parent_stored edge).2.1 parentHeight)

theorem WellFormed.height_eq (valid : store.WellFormed) {p : BlockPtr}
    (placed : store.Placed p) :
    (headerForest collisionFree).height (store.hash p) = store.height p :=
  (valid.level collisionFree placed).height_eq

/-- A block whose parent has the hash of a block in another store is one above
that block. -/
theorem WellFormed.height_child (collisionFree : CollisionFree)
    {other : BlockStore} (valid : store.WellFormed)
    (otherValid : other.WellFormed) {p parent q : BlockPtr}
    (edge : (store.block p).parentBlockPtr = some parent)
    (placed : other.Placed q) (sameHash : store.hash parent = other.hash q) :
    store.height p = other.height q + 1 := by
  have parentPlaced := (valid.parent_stored edge).2.1
  have sameHeight : store.height parent = other.height q := by
    rw [← valid.height_eq collisionFree parentPlaced, sameHash]
    exact otherValid.height_eq collisionFree placed
  rw [(valid.linked p parent edge).heightEq, sameHeight]

theorem WellFormed.rooted (valid : store.WellFormed) {p : BlockPtr}
    (placed : store.Placed p) :
    (headerForest collisionFree).Rooted (store.hash p) :=
  ⟨_, valid.level collisionFree placed⟩

end Forest

/-! ### The operations keep the invariant -/

theorem wellFormed_init : init.WellFormed := by
  have single (p : BlockPtr) : init.block p = .genesisBlock := by
    cases p <;> rfl
  have cached (hash : Hash) :
      init.getBlock hash = if hash = zeroHash then some 0 else none := by
    by_cases same : hash = zeroHash
    · simp [getBlock, init, same]
    · simp [getBlock, init, List.lookup_cons, same,
        beq_eq_false_iff_ne.mpr same]
  constructor
  · exact Nat.zero_lt_one
  · rfl
  · intro p notGenesis bound
    exact (notGenesis (Nat.lt_one_iff.mp bound)).elim
  · simp [cached]
  · intro hash p found
    rw [cached] at found
    split at found
    · rename_i same
      obtain rfl : 0 = p := Option.some.inj found
      exact ⟨same.symm, .inl rfl⟩
    · cases found
  · intro p parent edge
    rw [single] at edge
    cases edge
  · intro p _
    rw [height, single]
    exact ⟨rfl, rfl⟩
  · intro p linked
    rw [single] at linked
    cases linked

theorem SameTree.wellFormed {first second : BlockStore}
    (same : SameTree first second) (valid : first.WellFormed) :
    second.WellFormed := by
  have parsedEq (p : BlockPtr) :
      (second.block p).parsedQc = (first.block p).parsedQc :=
    congrArg HotstuffBlock.Links.parsedQc (same.links p)
  have justifyHashEq (p : BlockPtr) :
      (second.block p).getJustifyHash = (first.block p).getJustifyHash := by
    rw [HotstuffBlock.getJustifyHash, HotstuffBlock.getJustifyQc, parsedEq]
    rfl
  have parentHashEq (p : BlockPtr) :
      (second.block p).getParentHash = (first.block p).getParentHash := by
    rw [HotstuffBlock.getParentHash, same.header]
    rfl
  constructor
  · exact same.length ▸ valid.nonempty
  · exact (same.links 0).trans valid.genesis
  · intro p notGenesis bound
    rw [same.hash, same.header, parsedEq]
    exact valid.hashed p notGenesis (same.length ▸ bound)
  · rw [same.getBlock]
    exact valid.cacheGenesis
  · intro hash p found
    rw [same.getBlock] at found
    rw [same.hash, same.placed]
    exact valid.cacheSound hash p found
  · intro p parent edge
    rw [same.parentBlockPtr] at edge
    obtain ⟨parentStored, heightEq, justifyStored⟩ := valid.linked p parent edge
    refine ⟨?_, ?_, ?_⟩
    · rw [same.getBlock, parentHashEq]
      exact parentStored
    · rw [same.height, same.height]
      exact heightEq
    · simpa only [same.getBlock, justifyHashEq, same.justifyBlockPtr] using justifyStored
  · intro p noParent
    rw [same.parentBlockPtr] at noParent
    rw [same.justifyBlockPtr, same.height]
    exact valid.unlinked p noParent
  · intro p linked
    rw [same.getBlock, same.hash]
    exact valid.linkedCached p ((linked_of_links (same.links p)).mp linked)

/-- Allocating an object leaves all others where they are. -/
theorem WellFormed.extends_alloc {store : BlockStore}
    (valid : store.WellFormed) (block : HotstuffBlock) :
    Extends store (store.alloc block).1 := by
  have old {p : BlockPtr} (bound : p < store.heap.length) :
      (store.alloc block).1.block p = store.block p := by
    rw [block_alloc, if_neg bound.ne]
  constructor
  · simp [alloc]
  · intro p bound
    rw [hash, hash, old bound]
    exact ⟨rfl, rfl, rfl⟩
  · intro p placed
    rw [old (valid.lt_of_placed placed)]
  · exact fun _ _ found => found

/-- A block object that stays the same stays properly linked when blocks are
added. -/
theorem WellFormed.properlyLinked_of_extends {first second : BlockStore}
    (valid : first.WellFormed) (longer : Extends first second)
    {p parent : BlockPtr} (same : second.block p = first.block p)
    (edge : (first.block p).parentBlockPtr = some parent) :
    second.ProperlyLinked p parent := by
  obtain ⟨parentStored, heightEq, justify, names, found⟩ :=
    valid.linked p parent edge
  have parentPlaced := (valid.parent_stored edge).2.1
  constructor
  · rw [same]
    exact longer.cache _ _ parentStored
  · rw [longer.height parentPlaced, height, same]
    exact heightEq
  · rw [same]
    exact ⟨justify, names, longer.cache _ _ found⟩

/-- A new object has the hash and the certificate of its header. -/
theorem hashed_of_fresh {block : HotstuffBlock}
    {wireBlock : HotstuffBlockWire} {proposer : ReplicaID}
    (fresh : block.links = (HotstuffBlock.new wireBlock proposer).links) :
    block.getHash = hashHeader block.wireBlock.header ∧
      block.parsedQc = some (.ofWire block.wireBlock.header.qc) := by
  have hashEq : block.getHash = hashHeader wireBlock.header :=
    congrArg HotstuffBlock.Links.hash fresh
  have headerEq : block.wireBlock.header = wireBlock.header :=
    congrArg HotstuffBlock.Links.header fresh
  have parsedEq : block.parsedQc = some (.ofWire wireBlock.header.qc) :=
    congrArg HotstuffBlock.Links.parsedQc fresh
  rw [headerEq]
  exact ⟨hashEq, parsedEq⟩

/-- A fresh object is not in the tree yet. -/
theorem WellFormed.alloc {store : BlockStore} (valid : store.WellFormed)
    {block : HotstuffBlock} {wireBlock : HotstuffBlockWire}
    {proposer : ReplicaID}
    (fresh : block.links = (HotstuffBlock.new wireBlock proposer).links) :
    (store.alloc block).1.WellFormed := by
  have longer := valid.extends_alloc block
  have freshParent : block.parentBlockPtr = none :=
    congrArg HotstuffBlock.Links.parentBlockPtr fresh
  have freshJustify : block.justifyBlockPtr = none :=
    congrArg HotstuffBlock.Links.justifyBlockPtr fresh
  have freshHeight : block.blockHeight = 0 :=
    congrArg HotstuffBlock.Links.blockHeight fresh
  have blockCases (p : BlockPtr) := block_alloc store block p
  constructor
  · simp [BlockStore.alloc]
  · exact (longer.links 0 (.inl rfl)).trans valid.genesis
  · intro p notGenesis bound
    rw [hash, blockCases]
    split
    · exact hashed_of_fresh fresh
    · rename_i old
      exact valid.hashed p notGenesis (lt_of_alloc bound old)
  · exact valid.cacheGenesis
  · intro hash p found
    obtain ⟨hashEq, placed⟩ := valid.cacheSound hash p found
    exact ⟨(longer.hash placed).trans hashEq, longer.placed placed⟩
  · intro p parent edge
    rw [blockCases] at edge
    split at edge
    · rw [freshParent] at edge
      cases edge
    · rename_i old
      apply valid.properlyLinked_of_extends longer _ edge
      rw [blockCases, if_neg old]
  · intro p noParent
    rw [height, blockCases]
    rw [blockCases] at noParent
    split
    · exact ⟨freshJustify, freshHeight⟩
    · rename_i old
      rw [if_neg old] at noParent
      exact valid.unlinked p noParent
  · intro p linked
    rw [blockCases] at linked
    split at linked
    · rw [HotstuffBlock.Linked, freshParent] at linked
      cases linked
    · rw [longer.hash (.inr linked)]
      exact valid.linkedCached p linked

section Insertion

variable {store : BlockStore} {p parent justify : BlockPtr}

/-- Inserting a linked block again changes nothing in the tree. -/
theorem WellFormed.sameTree_addLinked (valid : store.WellFormed)
    (linked : (store.block p).Linked)
    (parentFound :
      store.getBlock (store.block p).getParentHash = some parent)
    (justifyFound :
      store.getBlock (store.block p).getJustifyHash = some justify) :
    SameTree store (store.addLinked p parent justify) := by
  obtain ⟨parent', edge, proper⟩ := valid.parent_of_linked linked
  obtain rfl : parent = parent' :=
    Option.some.inj (parentFound.symm.trans proper.parentStored)
  obtain ⟨justify', names, found⟩ := proper.justifyStored
  obtain rfl : justify = justify' :=
    Option.some.inj (justifyFound.symm.trans found)
  refine ⟨length_addLinked store p parent justify, ?_, ?_⟩
  · have cached := valid.linkedCached p linked
    have kept : ((store.link p parent justify).getBlock (store.hash p)).isSome :=
      cached
    simp only [addLinked, emplace, kept, if_true]
    rfl
  · intro q
    rw [block_addLinked]
    split
    · rename_i same
      obtain ⟨rfl, -⟩ := same
      simp only [HotstuffBlock.links, HotstuffBlock.getHash, edge, names,
        ← proper.heightEq]
      rfl
    · rfl

/-- Linking a block leaves all placed blocks where they are. -/
theorem WellFormed.extends_addLinked (valid : store.WellFormed)
    (parentFound :
      store.getBlock (store.block p).getParentHash = some parent)
    (justifyFound :
      store.getBlock (store.block p).getJustifyHash = some justify)
    (notGenesis : p ≠ 0) :
    Extends store (store.addLinked p parent justify) := by
  by_cases linked : (store.block p).Linked
  · exact (valid.sameTree_addLinked linked parentFound justifyFound).extends
  constructor
  · exact (length_addLinked store p parent justify).ge
  · intro q bound
    rw [hash, hash, block_addLinked]
    split <;> exact ⟨rfl, rfl, rfl⟩
  · intro q placed
    rw [block_addLinked_of_ne]
    rintro rfl
    exact placed.elim notGenesis linked
  · intro hash q found
    rw [getBlock_addLinked, if_neg]
    · exact found
    · rintro ⟨rfl, absent⟩
      rw [absent] at found
      cases found

theorem WellFormed.addLinked (valid : store.WellFormed)
    (parentFound :
      store.getBlock (store.block p).getParentHash = some parent)
    (justifyFound :
      store.getBlock (store.block p).getJustifyHash = some justify)
    (notGenesis : p ≠ 0) (bound : p < store.heap.length) :
    (store.addLinked p parent justify).WellFormed := by
  by_cases linked : (store.block p).Linked
  · exact (valid.sameTree_addLinked linked parentFound justifyFound).wellFormed
      valid
  have longer := valid.extends_addLinked parentFound justifyFound notGenesis
  have otherBlock {q : BlockPtr} (different : p ≠ q) :
      (store.addLinked p parent justify).block q = store.block q :=
    block_addLinked_of_ne different parent justify
  have newBlock := block_addLinked_self bound parent justify
  have hashEq (q : BlockPtr) :
      (store.addLinked p parent justify).hash q = store.hash q :=
    property_addLinked HotstuffBlock.getHash (fun _ _ _ _ => rfl)
      store p parent justify q
  have newLinked : ((store.addLinked p parent justify).block p).Linked := by
    rw [newBlock]
    rfl
  constructor
  · rw [length_addLinked]
    exact valid.nonempty
  · exact (longer.links 0 (.inl rfl)).trans valid.genesis
  · intro q notZero bound'
    rw [length_addLinked] at bound'
    obtain ⟨hash, header, parsed⟩ := longer.identity q bound'
    rw [hash, header, parsed]
    exact valid.hashed q notZero bound'
  · exact longer.cache _ _ valid.cacheGenesis
  · intro hash q found
    rw [getBlock_addLinked] at found
    split at found
    · rename_i new
      obtain rfl : p = q := Option.some.inj found
      exact ⟨(hashEq p).trans new.1.symm, .inr newLinked⟩
    · obtain ⟨same, placed⟩ := valid.cacheSound hash q found
      exact ⟨(hashEq q).trans same, longer.placed placed⟩
  · intro q above edge
    by_cases same : p = q
    · subst same
      rw [newBlock] at edge
      obtain rfl : parent = above := Option.some.inj edge
      have parentPlaced := (valid.stored_of_getBlock parentFound).2.1
      refine ⟨?_, ?_, ?_⟩
      · rw [newBlock]
        exact longer.cache _ _ parentFound
      · rw [longer.height parentPlaced, height, newBlock]
      · rw [newBlock]
        exact ⟨justify, rfl, longer.cache _ _ justifyFound⟩
    · rw [otherBlock same] at edge
      exact valid.properlyLinked_of_extends longer (otherBlock same) edge
  · intro q noParent
    by_cases same : p = q
    · subst same
      rw [newBlock] at noParent
      cases noParent
    · rw [otherBlock same] at noParent
      rw [height, otherBlock same]
      exact valid.unlinked q noParent
  · intro q linked'
    rw [hashEq, getBlock_addLinked]
    by_cases absent : store.hash q = store.hash p ∧
        store.getBlock (store.hash p) = none
    · rw [if_pos absent]
      rfl
    · rw [if_neg absent]
      by_cases same : p = q
      · subst same
        exact Option.isSome_iff_ne_none.mpr fun none => absent ⟨rfl, none⟩
      · rw [otherBlock same] at linked'
        exact valid.linkedCached q linked'

/-- Whatever `insert_block` returns, the store stays well formed and keeps its
blocks. -/
theorem WellFormed.insertBlock (valid : store.WellFormed)
    (notGenesis : p ≠ 0) (bound : p < store.heap.length) :
    (store.insertBlock p).1.WellFormed ∧
      Extends store (store.insertBlock p).1 := by
  rcases insertBlock_cases store p with
    ⟨parent, justify, parentFound, justifyFound, result, -⟩ | ⟨-, result, -⟩
  · rw [result]
    exact ⟨valid.addLinked parentFound justifyFound notGenesis bound,
      valid.extends_addLinked parentFound justifyFound notGenesis⟩
  · rw [result]
    exact ⟨valid, .refl store⟩

/-- A fresh block was appended to the heap and inserted into the tree. -/
structure Appended (store after : BlockStore) (wireBlock : HotstuffBlockWire) :
    Prop where
  tree : after.WellFormed
  longer : store.Extends after
  length : after.heap.length = store.heap.length + 1
  hash : after.hash store.heap.length = hashHeader wireBlock.header
  parent : ∃ parent,
    (after.block store.heap.length).parentBlockPtr = some parent ∧
      after.hash parent = wireBlock.header.parentHash
  stored : store.getBlock (hashHeader wireBlock.header) = none →
    after.Stored store.heap.length

/-- Inserting a fresh block succeeds when its parent and its justify block are
stored. -/
theorem WellFormed.alloc_insertBlock (valid : store.WellFormed)
    {block : HotstuffBlock} {wireBlock : HotstuffBlockWire}
    {proposer : ReplicaID}
    (fresh : block.links = (HotstuffBlock.new wireBlock proposer).links)
    (parentFound : (store.getBlock wireBlock.header.parentHash).isSome)
    (justifyFound : (store.getBlock wireBlock.header.qc.justify).isSome) :
    ((store.alloc block).1.insertBlock store.heap.length).2.any = false ∧
      store.Appended ((store.alloc block).1.insertBlock store.heap.length).1
        wireBlock := by
  have allocated := valid.alloc fresh
  have longer := valid.extends_alloc block
  have length : (store.alloc block).1.heap.length = store.heap.length + 1 := by
    simp [BlockStore.alloc]
  have bound : store.heap.length < (store.alloc block).1.heap.length := by
    omega
  have newBlock : (store.alloc block).1.block store.heap.length = block := by
    rw [block_alloc, if_pos rfl]
  have headerEq : block.wireBlock.header = wireBlock.header :=
    congrArg HotstuffBlock.Links.header fresh
  have hashEq : (store.alloc block).1.hash store.heap.length =
      hashHeader wireBlock.header := by
    rw [(allocated.hashed _ valid.nonempty.ne' bound).1, newBlock, headerEq]
  obtain ⟨tree, longer'⟩ := allocated.insertBlock valid.nonempty.ne' bound
  rcases insertBlock_cases (store.alloc block).1 store.heap.length with
    ⟨parent, justify, found, -, result, complete⟩ | ⟨missing, -, -⟩
  swap
  · rw [newBlock, HotstuffBlock.getParentHash, headerEq] at missing
    have justifyEq : block.getJustifyHash = wireBlock.header.qc.justify := by
      rw [← newBlock, allocated.getJustifyHash_eq valid.nonempty.ne' bound,
        newBlock, headerEq]
    rw [justifyEq] at missing
    rcases missing with absent | absent
    · rw [show store.getBlock wireBlock.header.parentHash = none from absent]
        at parentFound
      cases parentFound
    · rw [show store.getBlock wireBlock.header.qc.justify = none from absent]
        at justifyFound
      cases justifyFound
  · have newHash := (longer'.identity _ bound).1.trans hashEq
    refine ⟨complete, tree, longer.trans longer', ?_, newHash,
      ⟨parent, ?_, ?_⟩, ?_⟩
    · rw [length_insertBlock, length]
    · rw [result, block_addLinked_self bound]
    · rw [newBlock, HotstuffBlock.getParentHash, headerEq] at found
      exact (tree.stored_of_getBlock (longer'.cache _ _ found)).2.2
    · intro absent
      rw [Stored, newHash, result, getBlock_addLinked, hashEq,
        if_pos ⟨rfl, absent⟩]

/-- An insertion of a fresh block that reports nothing missing has found its
parent and its justify block. -/
theorem WellFormed.appended_of_complete (valid : store.WellFormed)
    {block : HotstuffBlock} {wireBlock : HotstuffBlockWire}
    {proposer : ReplicaID}
    (fresh : block.links = (HotstuffBlock.new wireBlock proposer).links)
    (complete : ((store.alloc block).1.insertBlock
      store.heap.length).2.any = false) :
    store.Appended ((store.alloc block).1.insertBlock store.heap.length).1
      wireBlock := by
  have headerEq : block.wireBlock.header = wireBlock.header :=
    congrArg HotstuffBlock.Links.header fresh
  have parsed : block.parsedQc = some (.ofWire wireBlock.header.qc) :=
    congrArg HotstuffBlock.Links.parsedQc fresh
  have justifyEq : block.getJustifyHash = wireBlock.header.qc.justify := by
    rw [HotstuffBlock.getJustifyHash, HotstuffBlock.getJustifyQc, parsed]
    exact QuorumCertificate.objHash_ofWire _
  rcases insertBlock_cases (store.alloc block).1 store.heap.length with
    ⟨parent, justify, parentFound, justifyFound, -⟩ | ⟨-, -, missing⟩
  · rw [block_alloc, if_pos rfl] at parentFound justifyFound
    rw [HotstuffBlock.getParentHash, headerEq] at parentFound
    rw [justifyEq] at justifyFound
    exact (valid.alloc_insertBlock fresh (Option.isSome_of_eq_some parentFound)
      (Option.isSome_of_eq_some justifyFound)).2
  · exact (Bool.false_ne_true (complete.symm.trans missing)).elim

end Insertion

/-! ### Garbage collection keeps the tree -/

omit [Externals] in
theorem links_flushFromMemory (block : HotstuffBlock) :
    (flushFromMemory block).links = block.links := by
  unfold flushFromMemory
  split <;> rfl

omit [Externals] in
/-- A property of block objects that flushing does not affect survives the
collector. -/
theorem property_gcLoop {Property : Type*}
    (property : HotstuffBlock → Property)
    (kept : ∀ block, property (flushFromMemory block) = property block)
    (hotstuffHeight rounds iter : Nat) (store : BlockStore) (p : BlockPtr) :
    property ((gcLoop hotstuffHeight rounds iter store).block p) =
      property (store.block p) := by
  induction rounds generalizing iter store with
  | zero => rfl
  | succ rounds ih =>
      unfold gcLoop
      split
      · rfl
      · dsimp only
        split
        · exact (ih _ _).trans (property_modifyBlock property _ kept store _ p)
        · exact ih _ _

omit [Externals] in
theorem frame_gcLoop (hotstuffHeight rounds iter : Nat) (store : BlockStore) :
    (gcLoop hotstuffHeight rounds iter store).heap.length =
        store.heap.length ∧
      (gcLoop hotstuffHeight rounds iter store).blockCache =
        store.blockCache := by
  induction rounds generalizing iter store with
  | zero => exact ⟨rfl, rfl⟩
  | succ rounds ih =>
      unfold gcLoop
      split
      · exact ⟨rfl, rfl⟩
      · dsimp only
        split
        · obtain ⟨length, cache⟩ := ih iter _
          exact ⟨length.trans (length_modifyBlock store _ _), cache⟩
        · exact ih _ _

omit [Externals] in
theorem property_runGc {Property : Type*}
    (property : HotstuffBlock → Property)
    (kept : ∀ block, property (flushFromMemory block) = property block)
    (store : BlockStore) (p : BlockPtr) :
    property (store.runGc.block p) = property (store.block p) := by
  unfold runGc
  split
  · rfl
  · exact property_gcLoop property kept _ _ _ _ p

omit [Externals] in
theorem sameTree_runGc (store : BlockStore) : SameTree store store.runGc := by
  refine ⟨?_, ?_, property_runGc _ links_flushFromMemory store⟩
  · unfold runGc
    split
    · rfl
    · exact (frame_gcLoop _ _ _ _).1
  · unfold runGc
    split
    · rfl
    · exact (frame_gcLoop _ _ _ _).2

end BlockStore

end Hotstuff
