import Hotstuff.BlockTree

/-!
# Following parent pointers

The loops of `update` and `on_receive_proposal` follow parent pointers down to a
given height, and `write_to_disk` follows them until it meets a block that is
already on disk.  `Chain` is the relation that the loops traverse.  In a well
formed store the loops always end, and they end where the forest of headers says
they should.
-/

namespace Hotstuff

variable [WireTypes]

namespace BlockStore

/-- Following parents from the first block passes the listed blocks and arrives
at the last one. -/
inductive Chain (store : BlockStore) : BlockPtr → List BlockPtr → BlockPtr → Prop
  | here (p : BlockPtr) : Chain store p [] p
  | up {p parent last : BlockPtr} {passed : List BlockPtr}
      (edge : (store.block p).parentBlockPtr = some parent)
      (rest : Chain store parent passed last) :
      Chain store p (p :: passed) last

theorem Chain.trans {store : BlockStore} {p middle last : BlockPtr}
    {first second : List BlockPtr} (upper : store.Chain p first middle)
    (lower : store.Chain middle second last) :
    store.Chain p (first ++ second) last := by
  induction upper with
  | here => exact lower
  | up edge _ ih => exact .up edge (ih lower)

/-- Parents are unique, so of two chains from one block one continues the
other. -/
theorem Chain.split {store : BlockStore} {p first second : BlockPtr}
    {passed others : List BlockPtr} (chain : store.Chain p passed first)
    (other : store.Chain p others second) :
    second ∈ passed ∨ ∃ rest, store.Chain first rest second := by
  induction chain generalizing others with
  | here => exact .inr ⟨others, other⟩
  | up edge _ ih =>
      cases other with
      | here => exact .inl (by simp)
      | up edge' rest' =>
          obtain rfl : _ = _ := Option.some.inj (edge.symm.trans edge')
          exact (ih rest').imp (List.mem_cons_of_mem _) id

theorem Chain.linked_of_mem {store : BlockStore} {p q last : BlockPtr}
    {passed : List BlockPtr} (chain : store.Chain p passed last)
    (member : q ∈ passed) : (store.block q).Linked := by
  induction chain with
  | here => cases member
  | up edge _ ih =>
      rcases List.mem_cons.mp member with rfl | member
      · rw [HotstuffBlock.Linked, edge]
        rfl
      · exact ih member

/-- Every block passed is on the chain. -/
theorem Chain.of_mem {store : BlockStore} {p q last : BlockPtr}
    {passed : List BlockPtr} (chain : store.Chain p passed last)
    (member : q ∈ passed) :
    ∃ before after, store.Chain p before q ∧ store.Chain q after last := by
  induction chain with
  | here => cases member
  | up edge rest ih =>
      rcases List.mem_cons.mp member with rfl | member
      · exact ⟨[], _, .here _, .up edge rest⟩
      · obtain ⟨before, after, upper, lower⟩ := ih member
        exact ⟨_, after, .up edge upper, lower⟩

/-- Chains only depend on the parent pointers of the blocks passed. -/
theorem Chain.congr {first second : BlockStore} {p last : BlockPtr}
    {passed : List BlockPtr} (chain : first.Chain p passed last)
    (same : ∀ q ∈ passed, (second.block q).parentBlockPtr =
      (first.block q).parentBlockPtr) :
    second.Chain p passed last := by
  induction chain with
  | here => exact .here _
  | up edge _ ih =>
      exact .up ((same _ (by simp)).trans edge)
        (ih fun q member => same q (List.mem_cons_of_mem _ member))

/-! ### The loop that walks down to a height -/

theorem walk_cases {store : BlockStore} {bound steps : Nat} {p last : BlockPtr}
    {passed : List BlockPtr}
    (result : store.walk bound steps p = some (passed, last)) :
    store.Chain p passed last ∧ store.height last ≤ bound ∧
      ∀ q ∈ passed, bound < store.height q := by
  induction steps generalizing p passed with
  | zero =>
      unfold walk at result
      split at result
      · cases result
      · rename_i low
        obtain ⟨rfl, rfl⟩ := Prod.mk.inj (Option.some.inj result)
        exact ⟨.here _, Nat.le_of_not_lt low, by simp⟩
  | succ steps ih =>
      unfold walk at result
      split at result
      · rename_i high
        split at result
        · rename_i before parent stepsEq edge
          obtain rfl : steps = before := Nat.succ.inj stepsEq
          obtain ⟨⟨others, last'⟩, found, pairEq⟩ :=
            Option.map_eq_some_iff.mp result
          obtain ⟨rfl, rfl⟩ := Prod.mk.inj pairEq
          obtain ⟨chain, low, above⟩ := ih found
          refine ⟨.up edge chain, low, ?_⟩
          intro q member
          rcases List.mem_cons.mp member with rfl | member
          · exact high
          · exact above q member
        · cases result
      · rename_i low
        obtain ⟨rfl, rfl⟩ := Prod.mk.inj (Option.some.inj result)
        exact ⟨.here _, Nat.le_of_not_lt low, by simp⟩

/-- The loop only reads heights and parents. -/
theorem SameTree.walk {first second : BlockStore}
    (same : SameTree first second) (bound steps : Nat) (p : BlockPtr) :
    second.walk bound steps p = first.walk bound steps p := by
  have parentEq (q : BlockPtr) :
      (second.block q).parentBlockPtr = (first.block q).parentBlockPtr :=
    congrArg HotstuffBlock.Links.parentBlockPtr (same.links q)
  induction steps generalizing p with
  | zero =>
      unfold BlockStore.walk
      rw [same.height]
  | succ steps ih =>
      unfold BlockStore.walk
      rw [same.height, parentEq]
      cases (first.block p).parentBlockPtr with
      | none => rfl
      | some parent => simp only [ih]

variable [Externals]

section Placed

variable {store : BlockStore} (valid : store.WellFormed)

include valid

theorem WellFormed.chain_placed {p last : BlockPtr} {passed : List BlockPtr}
    (chain : store.Chain p passed last) (placed : store.Placed p) :
    store.Placed last := by
  induction chain with
  | here => exact placed
  | up edge _ ih => exact ih (valid.parent_stored edge).2.1

theorem WellFormed.chain_stored {p last : BlockPtr} {passed : List BlockPtr}
    (chain : store.Chain p passed last) (stored : store.Stored p) :
    store.Stored last := by
  induction chain with
  | here => exact stored
  | up edge _ ih => exact ih (valid.parent_stored edge).1

theorem WellFormed.chain_height {p last : BlockPtr} {passed : List BlockPtr}
    (chain : store.Chain p passed last) :
    store.height p = store.height last + passed.length := by
  induction chain with
  | here => rfl
  | up edge _ ih =>
      rw [(valid.linked _ _ edge).heightEq, ih, List.length_cons]
      omega

/-- From its end, the blocks of a chain have consecutive heights. -/
theorem WellFormed.chain_heights {p last : BlockPtr} {passed : List BlockPtr}
    (chain : store.Chain p passed last) :
    passed.reverse.map store.height =
      List.range' (store.height last + 1) passed.length := by
  induction chain with
  | here => rfl
  | @up p parent last passed edge rest ih =>
      have below := valid.chain_height rest
      rw [List.reverse_cons, List.map_append, ih, List.length_cons,
        List.range'_1_concat]
      simp only [List.map_cons, List.map_nil, (valid.linked _ _ edge).heightEq]
      congr 2
      omega

/-- Heights drop along a chain, so no block is passed twice. -/
theorem WellFormed.chain_nodup {p last : BlockPtr} {passed : List BlockPtr}
    (chain : store.Chain p passed last) : passed.Nodup := by
  induction chain with
  | here => exact List.nodup_nil
  | up edge rest ih =>
      refine List.nodup_cons.mpr ⟨?_, ih⟩
      intro member
      obtain ⟨before, _, upper, -⟩ := rest.of_mem member
      have parentHeight := (valid.linked _ _ edge).heightEq
      have upperHeight := valid.chain_height upper
      omega

/-- The number of steps that the loop is given suffices. -/
theorem WellFormed.walk_isSome (bound : Nat) {steps : Nat} {p : BlockPtr}
    (enough : store.height p ≤ steps) :
    (store.walk bound steps p).isSome := by
  induction steps generalizing p with
  | zero =>
      unfold walk
      rw [if_neg (by omega)]
      rfl
  | succ steps ih =>
      unfold walk
      split
      · obtain ⟨parent, edge, proper⟩ :=
          valid.parent_of_linked (valid.linked_of_height_pos (p := p) (by omega))
        have lower : store.height parent ≤ steps := by
          have := proper.heightEq
          omega
        simpa [edge] using ih lower
      · rfl

/-- Chains from placed blocks are the same in every larger store. -/
theorem WellFormed.chain_extends {larger : BlockStore}
    (longer : Extends store larger) {p last : BlockPtr}
    {passed : List BlockPtr} (placed : store.Placed p) :
    larger.Chain p passed last ↔ store.Chain p passed last := by
  have parentEq {q : BlockPtr} (placed : store.Placed q) :
      (larger.block q).parentBlockPtr = (store.block q).parentBlockPtr :=
    congrArg HotstuffBlock.Links.parentBlockPtr (longer.links q placed)
  constructor
  · intro chain
    induction chain with
    | here => exact .here _
    | up edge _ ih =>
        rw [parentEq placed] at edge
        exact .up edge (ih (valid.parent_stored edge).2.1)
  · intro chain
    induction chain with
    | here => exact .here _
    | up edge _ ih =>
        exact .up ((parentEq placed).trans edge)
          (ih (valid.parent_stored edge).2.1)

/-- A chain that stops as soon as it is not above the bound ends at the
bound. -/
theorem WellFormed.chain_bound {bound : Nat} {p last : BlockPtr}
    {passed : List BlockPtr} (chain : store.Chain p passed last)
    (low : store.height last ≤ bound)
    (above : ∀ q ∈ passed, bound < store.height q)
    (high : bound ≤ store.height p) :
    store.height last = bound := by
  induction chain with
  | here => exact Nat.le_antisymm low high
  | up edge _ ih =>
      have here := above _ (List.mem_cons_self)
      rw [(valid.linked _ _ edge).heightEq] at here
      exact ih low (fun q member => above q (List.mem_cons_of_mem _ member))
        (Nat.le_of_lt_succ here)

/-- Walking from a block down to a bound that is not above it. -/
theorem WellFormed.walk_spec {bound : Nat} {p : BlockPtr}
    (high : bound ≤ store.height p) :
    ∃ passed last, store.walk bound (store.height p) p = some (passed, last) ∧
      store.Chain p passed last ∧ store.height last = bound ∧
      ∀ q ∈ passed, bound < store.height q := by
  obtain ⟨⟨passed, last⟩, result⟩ :=
    Option.isSome_iff_exists.mp (valid.walk_isSome bound (Nat.le_refl _))
  obtain ⟨chain, low, above⟩ := walk_cases result
  exact ⟨passed, last, result, chain,
    valid.chain_bound chain low above high, above⟩

theorem WellFormed.eq_genesis {p : BlockPtr}
    (placed : store.Placed p) (low : store.height p = 0) : p = 0 := by
  rcases placed with rfl | linked
  · rfl
  · obtain ⟨parent, -, proper⟩ := valid.parent_of_linked linked
    have := proper.heightEq
    omega

/-- The parent chain of a block in the tree reaches genesis. -/
theorem WellFormed.chain_genesis {p : BlockPtr}
    (placed : store.Placed p) :
    ∃ passed, store.Chain p passed 0 ∧ passed.length = store.height p := by
  obtain ⟨passed, last, -, chain, low, -⟩ :=
    valid.walk_spec (Nat.zero_le (store.height p))
  obtain rfl := valid.eq_genesis (valid.chain_placed chain placed) low
  refine ⟨passed, chain, ?_⟩
  have := valid.chain_height chain
  omega

end Placed

/-! ### Chains and the forest of headers -/

section Forest

variable {store : BlockStore} (collisionFree : CollisionFree)

theorem WellFormed.chain_ancestor (valid : store.WellFormed)
    {p last : BlockPtr} {passed : List BlockPtr}
    (chain : store.Chain p passed last) :
    (headerForest collisionFree).Ancestor (store.hash last) (store.hash p) := by
  induction chain with
  | here => exact .refl _
  | up edge _ ih => exact ih.tail (valid.parent_edge collisionFree edge)

/-- An ancestor of a stored block is reached from it by following parents. -/
theorem WellFormed.chain_of_ancestor (valid : store.WellFormed)
    {p last : BlockPtr} (stored : store.Stored p) (placed : store.Placed p)
    (lastStored : store.Stored last)
    (ancestor : (headerForest collisionFree).Ancestor (store.hash last)
      (store.hash p)) :
    ∃ passed, store.Chain p passed last := by
  induction size : store.height p generalizing p with
  | zero =>
      rcases ancestor.eq_or_parent with same | ⟨above, edge, -⟩
      · rw [WellFormed.stored_unique lastStored stored same]
        exact ⟨[], .here p⟩
      · have level := valid.level collisionFree placed
        rw [size] at level
        obtain ⟨_, impossible, -⟩ := level.parent edge
        omega
  | succ height ih =>
      rcases ancestor.eq_or_parent with same | ⟨above, edge, upper⟩
      · rw [WellFormed.stored_unique lastStored stored same]
        exact ⟨[], .here p⟩
      · obtain ⟨parent, parentEdge, proper⟩ := valid.parent_of_linked
          (valid.linked_of_height_pos (p := p) (by omega))
        obtain ⟨parentStored, parentPlaced, -⟩ := valid.parent_stored parentEdge
        obtain rfl : store.hash parent = above := Option.some.inj
          ((valid.parent_edge collisionFree parentEdge).symm.trans edge)
        obtain ⟨passed, chain⟩ := ih parentStored parentPlaced upper (by
          have := proper.heightEq
          omega)
        exact ⟨p :: passed, .up parentEdge chain⟩

/-- The hashes passed, in reverse, continue the path of the last block. -/
theorem WellFormed.chain_path (valid : store.WellFormed)
    {p last : BlockPtr} {passed : List BlockPtr}
    (chain : store.Chain p passed last) {nodes : List Hash}
    (path : (headerForest collisionFree).Path (store.hash last) nodes) :
    (headerForest collisionFree).Path (store.hash p)
      (nodes ++ passed.reverse.map store.hash) := by
  induction chain with
  | here => simpa using path
  | up edge _ ih =>
      rw [List.reverse_cons, List.map_append, ← List.append_assoc]
      exact .child (valid.parent_edge collisionFree edge) (ih path)

/-- All ancestors of a block in the tree are stored. -/
theorem WellFormed.stored_ancestor (valid : store.WellFormed) {p : BlockPtr}
    (stored : store.Stored p) (placed : store.Placed p) {hash : Hash}
    (ancestor : (headerForest collisionFree).Ancestor hash (store.hash p)) :
    ∃ q passed, store.Chain p passed q ∧ store.hash q = hash ∧
      store.Stored q := by
  -- Follow the parent pointers, along which the height decreases.
  induction size : store.height p using Nat.strong_induction_on
    generalizing p with
  | _ height ih =>
      rcases ancestor.eq_or_parent with rfl | ⟨upper, edge, above⟩
      · exact ⟨p, [], .here p, rfl, stored⟩
      · rcases placed with rfl | linked
        · rw [valid.genesis_hash] at edge
          exact (Option.some_ne_none _ (edge.symm.trans
            (headerForest collisionFree).parent_root)).elim
        · obtain ⟨parent, parentEdge, proper⟩ := valid.parent_of_linked linked
          obtain ⟨parentStored, parentPlaced, -⟩ :=
            valid.parent_stored parentEdge
          obtain rfl : store.hash parent = upper := Option.some.inj
            ((valid.parent_edge collisionFree parentEdge).symm.trans edge)
          have := proper.heightEq
          obtain ⟨q, passed, chain, found⟩ :=
            ih _ (by omega) parentStored parentPlaced above rfl
          exact ⟨q, p :: passed, .up parentEdge chain, found⟩

end Forest

/-! ### Writing to disk -/

/-- All ancestors of a written block are written. -/
def WrittenClosed (store : BlockStore) : Prop :=
  ∀ p parent, (store.block p).writtenToDisk = true →
    (store.block p).parentBlockPtr = some parent →
      (store.block parent).writtenToDisk = true

omit [Externals] in
/-- Writing changes nothing but the flags. -/
theorem property_writeToDisk {Property : Type*}
    (property : HotstuffBlock → Property)
    (kept : ∀ block, property (.markWritten block) = property block)
    (steps : Nat) (store : BlockStore) (p q : BlockPtr) :
    property ((writeToDisk steps store p).1.block q) =
      property (store.block q) := by
  induction steps generalizing store p with
  | zero => rfl
  | succ steps ih =>
      unfold writeToDisk
      split
      · rfl
      · dsimp only
        split
        · exact property_modifyBlock property _ kept store p q
        · exact (ih _ _).trans (property_modifyBlock property _ kept store p q)

omit [Externals] in
theorem sameTree_writeToDisk (steps : Nat) (store : BlockStore)
    (p : BlockPtr) : SameTree store (writeToDisk steps store p).1 := by
  have frame : (writeToDisk steps store p).1.heap.length = store.heap.length ∧
      (writeToDisk steps store p).1.blockCache = store.blockCache := by
    induction steps generalizing store p with
    | zero => exact ⟨rfl, rfl⟩
    | succ steps ih =>
        unfold writeToDisk
        split
        · exact ⟨rfl, rfl⟩
        · dsimp only
          split
          · exact ⟨length_modifyBlock store p _, rfl⟩
          · obtain ⟨length, cache⟩ := ih _ _
            exact ⟨length.trans (length_modifyBlock store p _), cache⟩
  exact ⟨frame.1, frame.2,
    property_writeToDisk HotstuffBlock.links (fun _ => rfl) steps store p⟩

omit [Externals] in
theorem written_markWritten (store : BlockStore) (p q : BlockPtr)
    (written : (store.block q).writtenToDisk = true) :
    ((store.modifyBlock p .markWritten).block q).writtenToDisk = true := by
  rw [block_modifyBlock]
  split
  · rfl
  · exact written

omit [Externals] in
theorem written_markWritten_self (store : BlockStore) (p : BlockPtr) :
    ((store.modifyBlock p .markWritten).block p).writtenToDisk = true := by
  rw [block_modifyBlock]
  split
  · rfl
  · rename_i outside
    rw [block_of_length_le (Nat.le_of_not_lt fun bound => outside ⟨rfl, bound⟩)]
    rfl

omit [Externals] in
/-- Every block on a chain keeps its place when the flag of a block is set. -/
theorem SameTree.chain {first second : BlockStore}
    (same : SameTree first second) {p last : BlockPtr}
    {passed : List BlockPtr} (chain : second.Chain p passed last) :
    first.Chain p passed last :=
  chain.congr fun q _ =>
    congrArg HotstuffBlock.Links.parentBlockPtr (same.links q).symm

omit [Externals] in
/-- The saved blocks are on the parent chain of the given block. -/
theorem saved_writeToDisk {steps : Nat} {store : BlockStore} {p : BlockPtr}
    {wireBlock : HotstuffBlockWire}
    (saved : wireBlock ∈ (writeToDisk steps store p).2) :
    ∃ q passed, store.Chain p passed q ∧ (store.block q).wireBlock = wireBlock ∧
      (store.block q).writtenToDisk = false := by
  induction steps generalizing store p with
  | zero => cases saved
  | succ steps ih =>
      unfold writeToDisk at saved
      split at saved
      · cases saved
      · rename_i notWritten
        have self : ∃ q passed, store.Chain p passed q ∧
            (store.block q).wireBlock = (store.block p).wireBlock ∧
            (store.block q).writtenToDisk = false :=
          ⟨p, [], .here p, rfl, eq_false_of_ne_true notWritten⟩
        split at saved
        · rw [List.mem_singleton.mp saved]
          exact self
        · rename_i parent edge
          rcases List.mem_cons.mp saved with rfl | rest
          · exact self
          · obtain ⟨q, passed, chain, wireEq, unwritten⟩ := ih rest
            have same : SameTree store (store.modifyBlock p .markWritten) :=
              sameTree_modifyBlock store p fun _ => rfl
            refine ⟨q, p :: passed, .up edge (same.chain chain), ?_, ?_⟩
            · rw [← wireEq]
              exact (property_modifyBlock HotstuffBlock.wireBlock .markWritten
                (fun _ => rfl) store p q).symm
            · cases flag : (store.block q).writtenToDisk with
              | false => rfl
              | true =>
                  rw [written_markWritten store p q flag] at unwritten
                  cases unwritten

omit [Externals] in
/-- Exactly the saved blocks get the flag. -/
theorem written_writeToDisk {steps : Nat} {store : BlockStore}
    {p q : BlockPtr}
    (written : ((writeToDisk steps store p).1.block q).writtenToDisk = true) :
    (store.block q).writtenToDisk = true ∨
      ((store.block q).wireBlock ∈ (writeToDisk steps store p).2 ∧
        ∃ passed, store.Chain p passed q) := by
  induction steps generalizing store p with
  | zero => exact .inl written
  | succ steps ih =>
      unfold writeToDisk at written ⊢
      split at written
      · exact .inl written
      · rename_i notWritten
        rw [if_neg notWritten]
        dsimp only at written ⊢
        have marked :
            ((store.modifyBlock p .markWritten).block q).writtenToDisk = true →
              (store.block q).writtenToDisk = true ∨ p = q := by
          intro flag
          rw [block_modifyBlock] at flag
          split at flag
          · rename_i both
            exact .inr both.1
          · exact .inl flag
        split at written
        · rcases marked written with old | rfl
          · exact .inl old
          · exact .inr ⟨by simp, [], .here _⟩
        · rename_i parent edge
          have same : SameTree store (store.modifyBlock p .markWritten) :=
            sameTree_modifyBlock store p fun _ => rfl
          rcases ih written with flag | ⟨saved, passed, chain⟩
          · rcases marked flag with old | rfl
            · exact .inl old
            · exact .inr ⟨by simp, [], .here _⟩
          · rw [property_modifyBlock HotstuffBlock.wireBlock .markWritten
              (fun _ => rfl)] at saved
            exact .inr ⟨List.mem_cons_of_mem _ saved, p :: passed,
              .up edge (same.chain chain)⟩

omit [Externals] in
/-- The flag is never taken back. -/
theorem writeToDisk_mono (steps : Nat) (store : BlockStore) (p q : BlockPtr)
    (written : (store.block q).writtenToDisk = true) :
    ((writeToDisk steps store p).1.block q).writtenToDisk = true := by
  induction steps generalizing store p with
  | zero => exact written
  | succ steps ih =>
      unfold writeToDisk
      split
      · exact written
      · dsimp only
        split
        · exact written_markWritten store p q written
        · exact ih _ _ (written_markWritten store p q written)

/-- Writing a block leaves it and all its ancestors written, provided that
before the call at most the block itself was missing below written ones. -/
theorem WellFormed.writtenClosed_writeToDisk {store : BlockStore}
    (valid : store.WellFormed) {steps : Nat} {p : BlockPtr}
    (enough : store.height p < steps)
    (closed : ∀ q parent, (store.block q).writtenToDisk = true →
      (store.block q).parentBlockPtr = some parent →
        (store.block parent).writtenToDisk = true ∨ parent = p) :
    (writeToDisk steps store p).1.WrittenClosed ∧
      ((writeToDisk steps store p).1.block p).writtenToDisk = true := by
  induction steps generalizing store p with
  | zero => omega
  | succ steps ih =>
      unfold writeToDisk
      split
      · rename_i written
        refine ⟨?_, written⟩
        intro q parent flag edge
        rcases closed q parent flag edge with done | rfl
        · exact done
        · exact written
      · dsimp only
        have markedClosed (q parent : BlockPtr)
            (flag : ((store.modifyBlock p .markWritten).block q).writtenToDisk =
              true)
            (edge : (store.block q).parentBlockPtr = some parent) :
            ((store.modifyBlock p .markWritten).block parent).writtenToDisk =
                true ∨ p = q := by
          rw [block_modifyBlock] at flag
          split at flag
          · rename_i both
            exact .inr both.1
          · rcases closed q parent flag edge with done | rfl
            · exact .inl (written_markWritten store p parent done)
            · exact .inl (written_markWritten_self store parent)
        have sameParent (q : BlockPtr) :
            ((store.modifyBlock p .markWritten).block q).parentBlockPtr =
              (store.block q).parentBlockPtr :=
          property_modifyBlock HotstuffBlock.parentBlockPtr .markWritten
            (fun _ => rfl) store p q
        split
        · rename_i noParent
          refine ⟨?_, written_markWritten_self store p⟩
          intro q parent flag edge
          rw [sameParent] at edge
          rcases markedClosed q parent flag edge with done | rfl
          · exact done
          · rw [noParent] at edge
            cases edge
        · rename_i parent edge
          have same : SameTree store (store.modifyBlock p .markWritten) :=
            sameTree_modifyBlock store p fun _ => rfl
          obtain ⟨done, -⟩ := ih (same.wellFormed valid)
            (p := parent) (by
              rw [same.height]
              have := (valid.linked p parent edge).heightEq
              omega)
            (by
              intro q above flag edge'
              rw [sameParent] at edge'
              rcases markedClosed q above flag edge' with done | rfl
              · exact .inl done
              · exact .inr (Option.some.inj (edge'.symm.trans edge)))
          exact ⟨done, writeToDisk_mono _ _ _ _
            (written_markWritten_self store p)⟩

end BlockStore

end Hotstuff
